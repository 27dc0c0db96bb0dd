import NetShare.Statistics
import NetShare.Application
import NetShare.Reasoning.Threads
import NetShare.Reasoning.Machine

/-!
# The statistics and their thread

`Statistics` from `diagnostics.h` with its mutex, its thread and `shutdown`.  The functions that
count are taken apart into the taking of the mutex, what they do under it and its release, and
`shutdown` waits for the thread with the mutex held.  Any number of threads call them.
-/

namespace NetShare

open Reasoning Finset

/-! ## 1. The object -/

/-- The functions that take the mutex.  The destructor calls `shutdown`. -/
inductive StatisticsCall where
  | shutdown
  | tunPacketSent
  | tunPacketRecieved
  | getTunPacketsSent
  | getTunPacketsRecieved
  | udpPacketSent (bits : Int)
  | udpPacketRecieved (bits : Int)
  | getUdpPacketsSent
  | getUdpPacketsRecieved
deriving DecidableEq

/-- Where a caller is: before the `lock_guard`, at the statement that a counting function has, in
`shutdown` before its test and each of its statements, before the release.  `fault` is an exception
of the promise or of `join`, or the use of a deleted thread. -/
inductive StatisticsPc where
  | idle
  | lock (c : StatisticsCall)
  | count (c : StatisticsCall)
  | test
  | setValue
  | join
  | delete
  | clear
  | unlock
  | fault
deriving DecidableEq

namespace StatisticsPc

/-- The caller holds the mutex. -/
def inside : StatisticsPc → Bool
  | .idle | .lock _ | .fault => false
  | _ => true

/-- The caller is in the body of `shutdown`. -/
def inBody : StatisticsPc → Bool
  | .setValue | .join | .delete | .clear => true
  | _ => false

/-- How many of the three statements that end the thread have been done. -/
def closing : StatisticsPc → Nat
  | .join => 1
  | .delete => 2
  | .clear => 3
  | _ => 0

theorem inside_of_inBody {pc : StatisticsPc} (h : pc.inBody = true) : pc.inside = true := by
  cases pc <;> first | rfl | cases h

end StatisticsPc

/-- Where a call goes on under the mutex. -/
def StatisticsCall.entry : StatisticsCall → StatisticsPc
  | .shutdown => .test
  | c => .count c

/-- `state` has the counters of the UDP traffic and where `calculateStats` is.  `exitSignal` says
whether the promise has its value, `joined` whether the thread was joined; `returned` is what the
last getter of each caller returned. -/
structure StatisticsObject (n : Nat) where
  state : StatisticsState := {}
  tunPacketsSent : Int := 0
  tunPacketsRecieved : Int := 0
  m : Option (Fin n) := none
  exitSignal : Bool := false
  joined : Bool := false
  statsCalcuatorThread : Pointer Unit := .live ()
  isRunning : Bool := true
  returned : Fin n → Option Int32 := fun _ => none
  pc : Fin n → StatisticsPc := fun _ => .idle

/-- A caller begins a call or goes on with it, or `calculateStats` goes on. -/
inductive StatisticsObjectLabel (n : Nat) where
  | call (i : Fin n) (c : StatisticsCall)
  | step (i : Fin n)
  | calculate
deriving DecidableEq

namespace StatisticsObject

variable {n : Nat}

def goto (s : StatisticsObject n) (i : Fin n) (pc : StatisticsPc) : StatisticsObject n :=
  { s with pc := Function.update s.pc i pc }

/-- A getter returns a `long long` as an `int`. -/
def answer (s : StatisticsObject n) (i : Fin n) (count : Int) : StatisticsObject n :=
  { s with returned := Function.update s.returned i (some (.ofInt count)) }

/-- A step of the atomic counters that is always possible. -/
def report (s : StatisticsObject n) (a : StatisticsLabel) : StatisticsObject n :=
  { s with state := (s.state.next a).getD s.state }

/-- What a function does under the mutex. -/
def count (s : StatisticsObject n) (i : Fin n) : StatisticsCall → StatisticsObject n
  | .shutdown => s
  | .tunPacketSent => { s with tunPacketsSent := s.tunPacketsSent + 1 }
  | .tunPacketRecieved => { s with tunPacketsRecieved := s.tunPacketsRecieved + 1 }
  | .getTunPacketsSent => s.answer i s.tunPacketsSent
  | .getTunPacketsRecieved => s.answer i s.tunPacketsRecieved
  | .udpPacketSent bits => s.report (.udpPacketSent bits)
  | .udpPacketRecieved bits => s.report (.udpPacketRecieved bits)
  | .getUdpPacketsSent => s.answer i s.state.stats.sent.udpPackets
  | .getUdpPacketsRecieved => s.answer i s.state.stats.recieved.udpPackets

/-- The next step of a caller.  `join` waits until `calculateStats` has returned. -/
def step (s : StatisticsObject n) (i : Fin n) : Option (StatisticsObject n) :=
  match s.pc i with
  | .idle | .fault => none
  | .lock c =>
    if s.m = none then
      some ({ s with m := some i }.goto i c.entry)
    else none
  | .count c => some ((s.count i c).goto i .unlock)
  | .test => some (s.goto i (if s.isRunning then .setValue else .unlock))
  | .setValue =>
    some (if s.exitSignal then s.goto i .fault else { s with exitSignal := true }.goto i .join)
  | .join =>
    match s.statsCalcuatorThread with
    | .live _ =>
      if s.joined then some (s.goto i .fault)
      else if s.state.pc = .returned then some ({ s with joined := true }.goto i .delete)
      else none
    | _ => some (s.goto i .fault)
  | .delete =>
    match s.statsCalcuatorThread.delete with
    | some thread => some ({ s with statsCalcuatorThread := thread }.goto i .clear)
    | none => some (s.goto i .fault)
  | .clear => some ({ s with isRunning := false }.goto i .unlock)
  | .unlock => some ({ s with m := none }.goto i .idle)

/-- `calculateStats` waits for the promise, a second at a time, and does not take the mutex. -/
def calculate (s : StatisticsObject n) : Option (StatisticsObject n) :=
  let a : StatisticsLabel := if s.state.pc = .wait then .waited !s.exitSignal else .calculate
  (s.state.next a).map fun state => { s with state }

def next (s : StatisticsObject n) : StatisticsObjectLabel n → Option (StatisticsObject n)
  | .call i c => if s.pc i = .idle then some (s.goto i (.lock c)) else none
  | .step i => s.step i
  | .calculate => s.calculate

end StatisticsObject

def statisticsObjectMachine (n : Nat) :
    Machine (StatisticsObject n) (StatisticsObjectLabel n) where
  init s := s = {}
  next := StatisticsObject.next

/-! ## 2. The end of the thread -/

namespace StatisticsObject

variable {n : Nat} {s t : StatisticsObject n}

/-- How far the thread has been ended: 1 when it was told, 2 when it was joined, 3 when it was
deleted. -/
def stage (s : StatisticsObject n) : Nat :=
  if s.isRunning then
    match s.m with
    | none => 0
    | some i => (s.pc i).closing
  else 3

/-- What the fields are then. -/
structure AtStage (s : StatisticsObject n) (stage : Nat) : Prop where
  exitSignal : s.exitSignal = decide (1 ≤ stage)
  joined : s.joined = decide (2 ≤ stage)
  thread : s.statsCalcuatorThread = if 3 ≤ stage then .freed else .live ()
  ended : 2 ≤ stage → s.state.pc = .returned
  told : s.state.pc = .returned → 1 ≤ stage

structure Sound (s : StatisticsObject n) : Prop where
  exclusive : Exclusive StatisticsPc.inside s.m s.pc
  body : ∀ i, (s.pc i).inBody = true → s.isRunning = true
  atStage : s.AtStage s.stage
  safe : ∀ i, s.pc i ≠ .fault
  counters : statisticsMachine.Reach s.state

theorem stage_of_stopped (h : s.isRunning = false) : s.stage = 3 := by
  unfold stage
  rw [h]
  exact if_neg Bool.false_ne_true

theorem stage_of_free (h : s.isRunning = true) (hm : s.m = none) : s.stage = 0 := by
  unfold stage
  rw [h, hm]
  rfl

theorem stage_of_held (h : s.isRunning = true) {i : Fin n} (hm : s.m = some i) :
    s.stage = (s.pc i).closing := by
  unfold stage
  rw [h, hm]
  rfl

@[simp] theorem goto_pc_self (s : StatisticsObject n) (i : Fin n) (pc : StatisticsPc) :
    (s.goto i pc).pc i = pc := Function.update_self ..

theorem goto_pc_of_ne (s : StatisticsObject n) {i j : Fin n} (h : j ≠ i) (pc : StatisticsPc) :
    (s.goto i pc).pc j = s.pc j := Function.update_of_ne h ..

/-- Steps that end nothing leave the stage as it is. -/
theorem stage_goto (s : StatisticsObject n) {i : Fin n} {pc : StatisticsPc}
    (h : pc.closing = (s.pc i).closing) : (s.goto i pc).stage = s.stage := by
  cases hrun : s.isRunning with
  | false => rw [stage_of_stopped hrun, stage_of_stopped (s := s.goto i pc) hrun]
  | true =>
    cases hm : s.m with
    | none => rw [stage_of_free hrun hm, stage_of_free (s := s.goto i pc) hrun hm]
    | some j =>
      rw [stage_of_held hrun hm, stage_of_held (s := s.goto i pc) hrun hm]
      by_cases hj : j = i
      · subst hj
        rw [goto_pc_self]
        exact h
      · rw [goto_pc_of_ne s hj]

namespace Sound

/-- The caller that goes on holds the mutex. -/
theorem held (h : s.Sound) {i : Fin n} {pc : StatisticsPc} (hpc : s.pc i = pc)
    (hin : pc.inside = true) : s.m = some i := by
  apply (h.exclusive i).mp
  rw [hpc]
  exact hin

theorem stage_eq (h : s.Sound) {i : Fin n} {pc : StatisticsPc} (hpc : s.pc i = pc)
    (hin : pc.inside = true) (hrun : s.isRunning = true) : s.stage = pc.closing := by
  rw [stage_of_held hrun (h.held hpc hin), hpc]

theorem running (h : s.Sound) {i : Fin n} {pc : StatisticsPc} (hpc : s.pc i = pc)
    (hbody : pc.inBody = true) : s.isRunning = true := by
  apply h.body i
  rw [hpc]
  exact hbody

/-- A caller goes on, and is in the body of `shutdown` only as long as `isRunning` is set. -/
theorem body_goto (h : s.Sound) {i : Fin n} {pc : StatisticsPc}
    (hpc : pc.inBody = true → s.isRunning = true) (j : Fin n)
    (hj : ((s.goto i pc).pc j).inBody = true) : s.isRunning = true := by
  by_cases hji : j = i
  · subst hji
    rw [goto_pc_self] at hj
    exact hpc hj
  · rw [goto_pc_of_ne s hji] at hj
    exact h.body j hj

theorem safe_goto (h : s.Sound) {i : Fin n} {pc : StatisticsPc} (hpc : pc ≠ .fault) (j : Fin n) :
    (s.goto i pc).pc j ≠ .fault := by
  by_cases hji : j = i
  · subst hji
    rw [goto_pc_self]
    exact hpc
  · rw [goto_pc_of_ne s hji]
    exact h.safe j

/-- The steps that only move a caller. -/
theorem goto (h : s.Sound) {i : Fin n} {pc : StatisticsPc} (hin : pc.inside = (s.pc i).inside)
    (hclosing : pc.closing = (s.pc i).closing) (hbody : pc.inBody = true → s.isRunning = true)
    (hpc : pc ≠ .fault) : (s.goto i pc).Sound where
  exclusive := h.exclusive.move hin
  body := h.body_goto hbody
  atStage := by
    rw [stage_goto s hclosing]
    exact ⟨h.atStage.exitSignal, h.atStage.joined, h.atStage.thread, h.atStage.ended,
      h.atStage.told⟩
  safe := h.safe_goto hpc
  counters := h.counters

/-- The counting functions change counters only. -/
theorem count (h : s.Sound) (i : Fin n) (c : StatisticsCall) : (s.count i c).Sound := by
  have hreport {a : StatisticsLabel} {state : StatisticsState} (hn : s.state.next a = some state)
      (hpc : state.pc = s.state.pc) : (s.report a).Sound := by
    have hstate : (s.report a).state = state := by
      unfold report
      rw [hn]
      rfl
    refine ⟨h.exclusive, h.body, ⟨h.atStage.exitSignal, h.atStage.joined, h.atStage.thread, ?_, ?_⟩,
      h.safe, ?_⟩
    · rw [hstate, hpc]
      exact h.atStage.ended
    · rw [hstate, hpc]
      exact h.atStage.told
    · rw [hstate]
      exact h.counters.next trivial hn
  have hsame {s' : StatisticsObject n} (hs : s'.state = s.state ∧ s'.m = s.m ∧
      s'.exitSignal = s.exitSignal ∧ s'.joined = s.joined ∧
      s'.statsCalcuatorThread = s.statsCalcuatorThread ∧ s'.isRunning = s.isRunning ∧
      s'.pc = s.pc) : s'.Sound := by
    obtain ⟨state, _, _, m, exitSignal, joined, thread, isRunning, _, pc⟩ := s'
    obtain ⟨rfl, rfl, rfl, rfl, rfl, rfl, rfl⟩ := hs
    exact ⟨h.exclusive, h.body, ⟨h.atStage.exitSignal, h.atStage.joined, h.atStage.thread,
      h.atStage.ended, h.atStage.told⟩, h.safe, h.counters⟩
  cases c with
  | shutdown => exact h
  | udpPacketSent bits => exact hreport rfl rfl
  | udpPacketRecieved bits => exact hreport rfl rfl
  | tunPacketSent | tunPacketRecieved | getTunPacketsSent | getTunPacketsRecieved
  | getUdpPacketsSent | getUdpPacketsRecieved => exact hsame ⟨rfl, rfl, rfl, rfl, rfl, rfl, rfl⟩

-- The mutex is taken; nobody was in the body of `shutdown`.
theorem lock (h : s.Sound) {i : Fin n} {c : StatisticsCall} (hm : s.m = none) :
    ({ s with m := some i }.goto i c.entry).Sound := by
  have hin : c.entry.inside = true := by cases c <;> rfl
  have hclosing : c.entry.closing = 0 := by cases c <;> rfl
  have hbody : c.entry.inBody = false := by cases c <;> rfl
  have hstage : ({ s with m := some i }.goto i c.entry).stage = s.stage := by
    obtain hrun | hrun := Bool.eq_false_or_eq_true s.isRunning
    · rw [stage_of_free hrun hm, ← hclosing]
      have hheld := stage_of_held (s := { s with m := some i }.goto i c.entry) hrun rfl
      rwa [goto_pc_self] at hheld
    · rw [stage_of_stopped hrun]
      exact stage_of_stopped hrun
  refine ⟨?_, ?_, ?_, ?_, h.counters⟩
  · have hfree := h.exclusive
    rw [hm] at hfree
    exact hfree.lock i hin
  · exact h.body_goto fun hno => absurd hno (by rw [hbody]; exact Bool.false_ne_true)
  · rw [hstage]
    exact ⟨h.atStage.exitSignal, h.atStage.joined, h.atStage.thread, h.atStage.ended,
      h.atStage.told⟩
  · apply h.safe_goto
    cases c <;> exact fun hno => by cases hno

/-- The mutex is released; `shutdown` has been left with `isRunning` cleared, or was not entered. -/
theorem unlock (h : s.Sound) {i : Fin n} (hpc : s.pc i = .unlock) :
    ({ s with m := none }.goto i .idle).Sound := by
  have hm := h.held hpc rfl
  have hstage : ({ s with m := none }.goto i .idle).stage = s.stage := by
    obtain hrun | hrun := Bool.eq_false_or_eq_true s.isRunning
    · rw [h.stage_eq hpc rfl hrun]
      exact stage_of_free hrun rfl
    · rw [stage_of_stopped hrun]
      exact stage_of_stopped hrun
  refine ⟨?_, ?_, ?_, ?_, h.counters⟩
  · have hheld := h.exclusive
    rw [hm] at hheld
    exact hheld.unlock rfl
  · exact h.body_goto fun hno => absurd hno Bool.false_ne_true
  · rw [hstage]
    exact ⟨h.atStage.exitSignal, h.atStage.joined, h.atStage.thread, h.atStage.ended,
      h.atStage.told⟩
  · exact h.safe_goto fun hno => by cases hno

/-- One of the three statements that end the thread, with the state it is made in. -/
theorem close (h : s.Sound) {i : Fin n} {pc pc' : StatisticsPc} (hpc : s.pc i = pc)
    (hin : pc.inside = true) (hin' : pc'.inside = true) (hpc' : pc' ≠ .fault)
    {exitSignal joined isRunning : Bool} {thread : Pointer Unit} {stage : Nat}
    (hrun : isRunning = true ∧ stage = pc'.closing ∨ isRunning = false ∧ stage = 3)
    (hbody : pc'.inBody = true → isRunning = true)
    (hat : AtStage { s with exitSignal, joined, statsCalcuatorThread := thread, isRunning } stage) :
    Sound ({ s with
      exitSignal, joined, statsCalcuatorThread := thread, isRunning }.goto i pc') := by
  have hm := h.held hpc hin
  have hexclusive : Exclusive StatisticsPc.inside s.m (Function.update s.pc i pc') := by
    apply h.exclusive.move
    rw [hpc, hin, hin']
  refine ⟨hexclusive, fun j hj => ?_, ?_, h.safe_goto hpc', h.counters⟩
  · -- only the caller that holds the mutex can be in the body
    have hinside := StatisticsPc.inside_of_inBody hj
    have hji : j = i := hexclusive.eq_of_inside hinside (by rw [Function.update_self]; exact hin')
    subst hji
    have hself := goto_pc_self s j pc'
    have hj' : ((s.goto j pc').pc j).inBody = true := hj
    rw [hself] at hj'
    exact hbody hj'
  · let s' : StatisticsObject n :=
      { s with exitSignal, joined, statsCalcuatorThread := thread, isRunning }
    have hstage : (s'.goto i pc').stage = stage := by
      obtain ⟨hrun, rfl⟩ | ⟨hrun, rfl⟩ := hrun
      · have hheld := stage_of_held (s := s'.goto i pc') hrun hm
        rwa [goto_pc_self] at hheld
      · exact stage_of_stopped (s := s'.goto i pc') hrun
    show (s'.goto i pc').AtStage (s'.goto i pc').stage
    rw [hstage]
    exact ⟨hat.exitSignal, hat.joined, hat.thread, hat.ended, hat.told⟩

theorem setValue (h : s.Sound) {i : Fin n} (hpc : s.pc i = .setValue) :
    s.exitSignal = false ∧ ({ s with exitSignal := true }.goto i .join).Sound := by
  have hrun := h.running hpc rfl
  have hat := h.atStage
  rw [h.stage_eq hpc rfl hrun] at hat
  refine ⟨hat.exitSignal, h.close hpc rfl rfl (fun hno => by cases hno) (.inl ⟨hrun, rfl⟩)
    (fun _ => hrun) ⟨rfl, hat.joined, hat.thread, fun hno => ?_, fun _ => Nat.le_refl 1⟩⟩
  exact absurd hno (by decide)

theorem join (h : s.Sound) {i : Fin n} (hpc : s.pc i = .join) :
    s.statsCalcuatorThread = .live () ∧ s.joined = false ∧ s.exitSignal = true ∧
      (s.state.pc = .returned → ({ s with joined := true }.goto i .delete).Sound) := by
  have hrun := h.running hpc rfl
  have hat := h.atStage
  rw [h.stage_eq hpc rfl hrun] at hat
  refine ⟨hat.thread, hat.joined, hat.exitSignal, fun hreturned => ?_⟩
  exact h.close hpc rfl rfl (fun hno => by cases hno) (.inl ⟨hrun, rfl⟩) (fun _ => hrun)
    ⟨hat.exitSignal, rfl, hat.thread, fun _ => hreturned, fun _ => by decide⟩

theorem delete (h : s.Sound) {i : Fin n} (hpc : s.pc i = .delete) :
    s.statsCalcuatorThread = .live () ∧
      ({ s with statsCalcuatorThread := .freed }.goto i .clear).Sound := by
  have hrun := h.running hpc rfl
  have hat := h.atStage
  rw [h.stage_eq hpc rfl hrun] at hat
  refine ⟨hat.thread, h.close hpc rfl rfl (fun hno => by cases hno) (.inl ⟨hrun, rfl⟩)
    (fun _ => hrun) ⟨hat.exitSignal, hat.joined, rfl, fun _ => hat.ended (by decide), ?_⟩⟩
  exact fun _ => by decide

theorem clear (h : s.Sound) {i : Fin n} (hpc : s.pc i = .clear) :
    ({ s with isRunning := false }.goto i .unlock).Sound := by
  have hrun := h.running hpc rfl
  have hat := h.atStage
  rw [h.stage_eq hpc rfl hrun] at hat
  exact h.close hpc rfl rfl (fun hno => by cases hno) (.inr ⟨rfl, rfl⟩)
    (fun hno => absurd hno Bool.false_ne_true)
    ⟨hat.exitSignal, hat.joined, hat.thread, hat.ended, hat.told⟩

/-- **Every step of a caller.** -/
theorem step (h : s.Sound) {i : Fin n} (hn : s.step i = some t) : t.Sound := by
  cases hpc : s.pc i with
  | idle | fault => simp only [StatisticsObject.step, hpc, reduceCtorEq] at hn
  | lock c =>
    simp only [StatisticsObject.step, hpc] at hn
    obtain ⟨hm, hn⟩ := Option.ite_none_right_eq_some.mp hn
    obtain rfl := Option.some.inj hn
    exact h.lock hm
  | count c =>
    simp only [StatisticsObject.step, hpc, Option.some.injEq] at hn
    have hpc' : (s.count i c).pc i = .count c := by cases c <;> exact hpc
    rw [← hn]
    apply (h.count i c).goto
    · rw [hpc']
      rfl
    · rw [hpc']
      rfl
    · exact fun hno => absurd hno Bool.false_ne_true
    · exact fun hno => by cases hno
  | test =>
    simp only [StatisticsObject.step, hpc, Option.some.injEq] at hn
    rw [← hn]
    split
    next hrun =>
      apply h.goto
      · rw [hpc]
        rfl
      · rw [hpc]
        rfl
      · exact fun _ => hrun
      · exact fun hno => by cases hno
    next =>
      apply h.goto
      · rw [hpc]
        rfl
      · rw [hpc]
        rfl
      · exact fun hno => absurd hno Bool.false_ne_true
      · exact fun hno => by cases hno
  | setValue =>
    obtain ⟨hsignal, ht⟩ := h.setValue hpc
    simp only [StatisticsObject.step, hpc, hsignal, Bool.false_eq_true, if_false,
      Option.some.injEq] at hn
    exact hn ▸ ht
  | join =>
    obtain ⟨hthread, hjoined, -, ht⟩ := h.join hpc
    simp only [StatisticsObject.step, hpc, hthread, hjoined, Bool.false_eq_true, if_false] at hn
    obtain ⟨hreturned, hn⟩ := Option.ite_none_right_eq_some.mp hn
    obtain rfl := Option.some.inj hn
    have ht := ht hreturned
    rwa [hthread] at ht
  | delete =>
    obtain ⟨hthread, ht⟩ := h.delete hpc
    simp only [StatisticsObject.step, hpc, hthread, Pointer.delete, Option.some.injEq] at hn
    exact hn ▸ ht
  | clear =>
    simp only [StatisticsObject.step, hpc, Option.some.injEq] at hn
    exact hn ▸ h.clear hpc
  | unlock =>
    simp only [StatisticsObject.step, hpc, Option.some.injEq] at hn
    exact hn ▸ h.unlock hpc

/-- **Every step of the thread.** -/
theorem calculate (h : s.Sound) (hn : s.calculate = some t) : t.Sound := by
  obtain ⟨state, hstate, rfl⟩ := Option.map_eq_some_iff.mp hn
  have hreach := h.counters.next trivial hstate
  have hended : 2 ≤ s.stage → state.pc = .returned := by
    intro hstage
    rw [h.atStage.ended hstage] at hstate
    simp only [reduceCtorEq, if_false, StatisticsState.next, StatisticsState.calculate,
      h.atStage.ended hstage] at hstate
  have htold : state.pc = .returned → 1 ≤ s.stage := by
    intro hreturned
    by_cases hwait : s.state.pc = .wait
    · -- the promise has its value
      rw [if_pos hwait] at hstate
      simp only [StatisticsState.next, hwait, if_true, Option.some.injEq] at hstate
      have hsignal := h.atStage.exitSignal
      rw [← hstate] at hreturned
      by_contra hstage
      rw [decide_eq_false hstage] at hsignal
      rw [hsignal] at hreturned
      cases hreturned
    · rw [if_neg hwait] at hstate
      have hcalculate : s.state.calculate = some state := hstate
      cases hpc : s.state.pc <;> simp only [StatisticsState.calculate, hpc, Option.some.injEq,
        reduceCtorEq] at hcalculate <;> rw [← hcalculate] at hreturned <;> cases hreturned
  exact ⟨h.exclusive, h.body, ⟨h.atStage.exitSignal, h.atStage.joined, h.atStage.thread, hended,
    htold⟩, h.safe, hreach⟩

end Sound

theorem sound_of_reach (h : (statisticsObjectMachine n).Reach s) : s.Sound := by
  refine h.invariant ?_ fun s a t hs hn => ?_
  · rintro _ rfl
    refine ⟨.outside fun _ => rfl, fun _ hno => absurd hno Bool.false_ne_true, ?_,
      fun _ hno => (by cases hno), ⟨{}, rfl, .refl⟩⟩
    refine ⟨rfl, rfl, rfl, fun hno => ?_, fun hno => by cases hno⟩
    exact absurd (show 2 ≤ 0 from hno) (by decide)
  · cases a with
    | call i c =>
      obtain ⟨hidle, hn⟩ := Option.ite_none_right_eq_some.mp hn
      obtain rfl := Option.some.inj hn
      apply hs.goto
      · rw [hidle]
        rfl
      · rw [hidle]
        rfl
      · exact fun hno => absurd hno Bool.false_ne_true
      · exact fun hno => by cases hno
    | step i => exact hs.step hn
    | calculate => exact hs.calculate hn

end StatisticsObject

/-! ## 3. Every call returns -/

/-- The callers' own steps and those of the thread. -/
def StatisticsObjectLabel.isCall {n : Nat} : StatisticsObjectLabel n → Bool
  | .call .. => true
  | _ => false

/-- How many steps a caller has left, for `setValue` with those of the thread it is to wait for. -/
def StatisticsPc.rank : StatisticsPc → Nat
  | .idle | .fault => 0
  | .lock _ => 17
  | .test => 16
  | .setValue => 15
  | .join => 4
  | .delete => 3
  | .clear => 2
  | .count _ => 2
  | .unlock => 1

/-- How many steps `calculateStats` has left once it is told to return. -/
def CalculatePc.rank : CalculatePc → Nat
  | .copyRecieved => 10
  | .copySent => 9
  | .clearRecieved => 8
  | .clearSent => 7
  | .addRecieved => 6
  | .addSent => 5
  | .maxRecieved => 4
  | .maxSent => 3
  | .operatingSeconds => 2
  | .wait => 1
  | .returned => 0

theorem CalculatePc.rank_le (pc : CalculatePc) : pc.rank ≤ 10 := by cases pc <;> decide

namespace StatisticsObject

variable {n : Nat} {s s' t : StatisticsObject n}

def threadRank (s : StatisticsObject n) : Nat := if s.exitSignal then s.state.pc.rank else 0

def rank (s : StatisticsObject n) : Nat := ∑ i, (s.pc i).rank + s.threadRank

-- One caller moves, and the thread may get steps to take.
theorem rank_goto_lt {i : Fin n} {pc : StatisticsPc} (hpc : s'.pc = s.pc)
    (h : pc.rank + s'.threadRank < (s.pc i).rank + s.threadRank) :
    (s'.goto i pc).rank < s.rank := by
  have hsum := sum_update_add StatisticsPc.rank s.pc i pc
  rw [← hpc] at hsum h
  unfold rank
  rw [← hpc]
  have hthread : (s'.goto i pc).threadRank = s'.threadRank := rfl
  have hcallers : (s'.goto i pc).pc = Function.update s'.pc i pc := rfl
  rw [hthread, hcallers]
  omega

theorem count_threadRank (s : StatisticsObject n) (i : Fin n) (c : StatisticsCall) :
    (s.count i c).threadRank = s.threadRank := by
  cases c <;> rfl

theorem count_pc (s : StatisticsObject n) (i : Fin n) (c : StatisticsCall) :
    (s.count i c).pc = s.pc := by
  cases c <;> rfl

/-- The thread that `join` waits for can go on, and gets nearer to its return. -/
theorem calculate_lt (hsignal : s.exitSignal = true) (hleft : s.state.pc ≠ .returned) :
    ∃ t, s.calculate = some t ∧ t.rank < s.rank := by
  have hrank {state : StatisticsState} (hlt : state.pc.rank < s.state.pc.rank) :
      ({ s with state } : StatisticsObject n).rank < s.rank := by
    apply Nat.add_lt_add_left
    unfold threadRank
    rw [hsignal]
    exact hlt
  have hstate : ∃ state, s.state.next (if s.state.pc = .wait then .waited !s.exitSignal
      else .calculate) = some state ∧ state.pc.rank < s.state.pc.rank := by
    rw [hsignal]
    cases hpc : s.state.pc with
    | returned => exact absurd hpc hleft
    | wait =>
      simp only [if_true, StatisticsState.next, hpc]
      exact ⟨_, rfl, Nat.zero_lt_one⟩
    | _ =>
      simp only [reduceCtorEq, if_false, StatisticsState.next, StatisticsState.calculate, hpc]
      exact ⟨_, rfl, Nat.le_of_ble_eq_true rfl⟩
  obtain ⟨state, hn, hlt⟩ := hstate
  exact ⟨{ s with state }, Option.map_eq_some_iff.mpr ⟨state, hn, rfl⟩, hrank hlt⟩

namespace Sound

/-- A caller that goes on gets nearer to its return. -/
theorem step_lt (h : s.Sound) {i : Fin n} (hn : s.step i = some t) : t.rank < s.rank := by
  cases hpc : s.pc i with
  | idle | fault => simp only [StatisticsObject.step, hpc, reduceCtorEq] at hn
  | lock c =>
    simp only [StatisticsObject.step, hpc] at hn
    obtain ⟨-, hn⟩ := Option.ite_none_right_eq_some.mp hn
    obtain rfl := Option.some.inj hn
    have hentry : c.entry.rank < 17 := by cases c <;> exact Nat.le_of_ble_eq_true rfl
    refine rank_goto_lt (s := s) (by rfl) ?_
    rw [hpc]
    exact Nat.add_lt_add_right hentry _
  | count c =>
    simp only [StatisticsObject.step, hpc, Option.some.injEq] at hn
    rw [← hn]
    apply rank_goto_lt (count_pc s i c)
    rw [hpc, count_threadRank]
    exact Nat.add_lt_add_right Nat.one_lt_two _
  | test =>
    simp only [StatisticsObject.step, hpc, Option.some.injEq] at hn
    rw [← hn]
    refine rank_goto_lt (s := s) (by rfl) ?_
    rw [hpc]
    apply Nat.add_lt_add_right
    split <;> decide
  | setValue =>
    obtain ⟨hsignal, -⟩ := h.setValue hpc
    simp only [StatisticsObject.step, hpc, hsignal, Bool.false_eq_true, if_false,
      Option.some.injEq] at hn
    rw [← hn]
    refine rank_goto_lt (s := s) (by rfl) ?_
    -- the thread is told, and has a round to finish at most
    have hle := s.state.pc.rank_le
    have htold : ({ s with exitSignal := true } : StatisticsObject n).threadRank =
        s.state.pc.rank := if_pos rfl
    rw [hpc, htold]
    show 4 + s.state.pc.rank < 15 + s.threadRank
    omega
  | join =>
    obtain ⟨hthread, hjoined, -, -⟩ := h.join hpc
    simp only [StatisticsObject.step, hpc, hthread, hjoined, Bool.false_eq_true, if_false] at hn
    obtain ⟨-, hn⟩ := Option.ite_none_right_eq_some.mp hn
    obtain rfl := Option.some.inj hn
    refine rank_goto_lt (s := s) (by rfl) ?_
    rw [hpc]
    exact Nat.add_lt_add_right (by decide) _
  | delete =>
    obtain ⟨hthread, -⟩ := h.delete hpc
    simp only [StatisticsObject.step, hpc, hthread, Pointer.delete, Option.some.injEq] at hn
    rw [← hn]
    refine rank_goto_lt (s := s) (by rfl) ?_
    rw [hpc]
    exact Nat.add_lt_add_right (by decide) _
  | clear | unlock =>
    simp only [StatisticsObject.step, hpc, Option.some.injEq] at hn
    rw [← hn]
    refine rank_goto_lt (s := s) (by rfl) ?_
    rw [hpc]
    exact Nat.add_lt_add_right (by decide) _

/-- As long as a caller has not returned, a caller or the thread can go on. -/
theorem progress (h : s.Sound) (hbusy : ¬ ∀ i, s.pc i = .idle) :
    ∃ a t, a.isCall = false ∧ s.next a = some t ∧ t.Sound ∧ t.rank < s.rank := by
  have hmove {i : Fin n} (hn : (s.step i).isSome = true) :
      ∃ a t, a.isCall = false ∧ s.next a = some t ∧ t.Sound ∧ t.rank < s.rank := by
    obtain ⟨t, ht⟩ := Option.isSome_iff_exists.mp hn
    exact ⟨.step i, t, rfl, ht, h.step ht, h.step_lt ht⟩
  cases hm : s.m with
  | none =>
    simp only [not_forall] at hbusy
    obtain ⟨i, hi⟩ := hbusy
    have hfree := h.exclusive
    rw [hm] at hfree
    have hout := hfree.outside_of_free i
    have hsafe := h.safe i
    apply hmove (i := i)
    cases hpc : s.pc i with
    | lock c => simp only [StatisticsObject.step, hpc, hm, if_true, Option.isSome_some]
    | idle => exact absurd hpc hi
    | fault => exact absurd hpc hsafe
    | _ =>
      rw [hpc] at hout
      cases hout
  | some i =>
    have hin := (h.exclusive i).mpr hm
    cases hpc : s.pc i with
    | join =>
      obtain ⟨hthread, hjoined, hsignal, -⟩ := h.join hpc
      by_cases hreturned : s.state.pc = .returned
      · apply hmove (i := i)
        simp only [StatisticsObject.step, hpc, hthread, hjoined, Bool.false_eq_true, if_false,
          hreturned, if_true, Option.isSome_some]
      · obtain ⟨t, ht, hlt⟩ := calculate_lt hsignal hreturned
        exact ⟨.calculate, t, rfl, ht, h.calculate ht, hlt⟩
    | delete =>
      obtain ⟨hthread, -⟩ := h.delete hpc
      apply hmove (i := i)
      simp only [StatisticsObject.step, hpc, hthread, Pointer.delete, Option.isSome_some]
    | idle | lock _ | fault =>
      rw [hpc] at hin
      cases hin
    | _ =>
      apply hmove (i := i)
      simp only [StatisticsObject.step, hpc, Option.isSome_some]

end Sound

end StatisticsObject

/-- **The thread of the statistics is ended once.**  Whoever calls `shutdown`, and however often:
the promise is set, the thread joined and deleted by one of the calls only; when `isRunning` is
cleared the thread has returned, and before `shutdown` takes the mutex nothing of it has happened.
The counters are those of a run in which each function is one step. -/
theorem statistics_endedOnce {n : Nat} {s : StatisticsObject n}
    (h : (statisticsObjectMachine n).Reach s) :
    (∀ i, s.pc i ≠ .fault) ∧
      (s.isRunning = false → s.state.pc = .returned ∧ s.joined = true ∧
        s.statsCalcuatorThread = .freed) ∧
      (s.isRunning = true → s.m = none → s.state.pc ≠ .returned ∧ s.exitSignal = false ∧
        s.statsCalcuatorThread = .live ()) ∧
      statisticsMachine.Reach s.state := by
  have hsound := StatisticsObject.sound_of_reach h
  have hat := hsound.atStage
  refine ⟨hsound.safe, fun hrun => ?_, fun hrun hm => ?_, hsound.counters⟩
  · rw [StatisticsObject.stage_of_stopped hrun] at hat
    exact ⟨hat.ended (by decide), hat.joined, hat.thread⟩
  · rw [StatisticsObject.stage_of_free hrun hm] at hat
    exact ⟨fun hno => absurd (hat.told hno) (by decide), hat.exitSignal, hat.thread⟩

/-- Two callers shut down, one after the other, while the thread is in a round. -/
def endedTwice {n : Nat} (i j : Fin n) : List (StatisticsObjectLabel n) :=
  [.calculate, .call i .shutdown, .call j .shutdown] ++ List.replicate 3 (.step i) ++
    List.replicate 10 .calculate ++ List.replicate 4 (.step i) ++ List.replicate 3 (.step j)

theorem statistics_endedOnce_endedTwice :
    let s := ((statisticsObjectMachine 2).run {} (endedTwice 0 1)).get (by decide)
    s.isRunning = false ∧ (∀ i, s.pc i ≠ .fault) ∧
      (s.isRunning = false → s.state.pc = .returned ∧ s.joined = true ∧
        s.statsCalcuatorThread = .freed) ∧
      (s.isRunning = true → s.m = none → s.state.pc ≠ .returned ∧ s.exitSignal = false ∧
        s.statsCalcuatorThread = .live ()) ∧
      statisticsMachine.Reach s.state :=
  ⟨by decide, statistics_endedOnce (Machine.reach_of_run rfl (Option.some_get _).symm)⟩

/-- **Every call returns**, although `shutdown` waits for the thread with the mutex held: the thread
does not take it.  From wherever the callers are, they and the thread can go on until all calls have
returned. -/
theorem statistics_return {n : Nat} {s : StatisticsObject n}
    (h : (statisticsObjectMachine n).Reach s) :
    ∃ t, (statisticsObjectMachine n).Leads (fun _ a => a.isCall = false) s t ∧
      ∀ i, t.pc i = .idle := by
  have hprogress (s : StatisticsObject n) (hs : s.Sound) (hbusy : ¬ ∀ i, s.pc i = .idle) :
      ∃ a t, a.isCall = false ∧ (statisticsObjectMachine n).next s a = some t ∧ t.Sound ∧
        t.rank < s.rank := hs.progress hbusy
  have hend : ∃ t, (statisticsObjectMachine n).Leads (fun _ a => a.isCall = false) s t ∧
      t.Sound ∧ ∀ i, t.pc i = .idle :=
    Machine.leads_of_rank StatisticsObject.rank _ hprogress (StatisticsObject.sound_of_reach h)
  obtain ⟨t, hleads, -, hidle⟩ := hend
  exact ⟨t, hleads, hidle⟩

theorem statistics_return_waiting :
    let s := ((statisticsObjectMachine 2).run {} ((endedTwice 0 1).take 6)).get (by decide)
    s.pc 0 = .join ∧
      ∃ t, (statisticsObjectMachine 2).Leads (fun _ a => a.isCall = false) s t ∧
        ∀ i, t.pc i = .idle :=
  ⟨by decide, statistics_return (Machine.reach_of_run rfl (Option.some_get _).symm)⟩

end NetShare
