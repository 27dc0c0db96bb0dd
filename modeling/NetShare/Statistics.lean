import NetShare.Reasoning.Machine

/-!
# The statistics of a driver

`Statistics` from `diagnostics.h`: the counters of the UDP traffic and `calculateStats`, the thread
that rolls them over once a second.  The packet functions hold the mutex and are one step each;
`calculateStats` does not take it, and each of its assignments is a step.  No counter overflows.
-/

namespace NetShare

open Reasoning

/-! ## 1. The counters -/

/-- The counters of one direction: for what is sent, `udpPackets` is `udpPacketsSent`, `bitsOverall`
is `bitsSentOverall`, and so on. -/
structure Traffic where
  udpPackets : Int := 0
  bitsOverall : Int := 0
  bitsCurrentSecond : Int := 0
  bitsLastSecond : Int := 0
  maxThroughput : Int := 0
deriving DecidableEq

structure Statistics where
  sent : Traffic := {}
  recieved : Traffic := {}
  operatingSeconds : Int := 0
deriving DecidableEq

namespace Traffic

def packet (t : Traffic) (bits : Int) : Traffic :=
  { t with bitsCurrentSecond := t.bitsCurrentSecond + bits, udpPackets := t.udpPackets + 1 }

/-- The assignments of `calculateStats` to the counters of one direction. -/
def copy (t : Traffic) : Traffic := { t with bitsLastSecond := t.bitsCurrentSecond }

def clear (t : Traffic) : Traffic := { t with bitsCurrentSecond := 0 }

def accumulate (t : Traffic) : Traffic := { t with bitsOverall := t.bitsOverall + t.bitsLastSecond }

def raiseMax (t : Traffic) : Traffic :=
  if t.bitsLastSecond > t.maxThroughput then { t with maxThroughput := t.bitsLastSecond } else t

end Traffic

namespace Statistics

def udpPacketSent (s : Statistics) (bits : Int) : Statistics :=
  { s with sent := s.sent.packet bits }

def udpPacketRecieved (s : Statistics) (bits : Int) : Statistics :=
  { s with recieved := s.recieved.packet bits }

end Statistics

/-! ## 2. `calculateStats` -/

/-- The next statement of `calculateStats`: the wait for a second to pass, or an assignment. -/
inductive CalculatePc where
  | wait
  | copyRecieved
  | copySent
  | clearRecieved
  | clearSent
  | addRecieved
  | addSent
  | maxRecieved
  | maxSent
  | operatingSeconds
  | returned
deriving DecidableEq

/-- Where the roll-over of one direction stands. -/
inductive Phase where
  | counting
  | copied
  | cleared
  | raised
deriving DecidableEq

namespace CalculatePc

def recievedPhase : CalculatePc → Phase
  | .copySent | .clearRecieved => .copied
  | .clearSent | .addRecieved => .cleared
  | .maxSent | .operatingSeconds => .raised
  | _ => .counting

def sentPhase : CalculatePc → Phase
  | .clearRecieved | .clearSent => .copied
  | .addRecieved | .addSent => .cleared
  | .operatingSeconds => .raised
  | _ => .counting

/-- Between two rounds of the loop, or behind it. -/
def atBoundary : CalculatePc → Bool
  | .wait | .returned => true
  | _ => false

end CalculatePc

/-- What happened in one direction: the sum of the amounts passed, that of the amounts added between
the copy of a counter and its clearing, and the amounts of the finished seconds. -/
structure Account where
  passed : Int := 0
  lost : Int := 0
  seconds : List Int := []
deriving DecidableEq

namespace Account

def pass (a : Account) (phase : Phase) (bits : Int) : Account :=
  { a with
    passed := a.passed + bits
    lost := if phase = .copied then a.lost + bits else a.lost }

def finish (a : Account) (t : Traffic) : Account :=
  { a with seconds := a.seconds ++ [t.bitsLastSecond] }

end Account

structure StatisticsState where
  stats : Statistics := {}
  pc : CalculatePc := .wait
  sent : Account := {}
  recieved : Account := {}
deriving DecidableEq

/-- `waited` is the end of the wait: a second has passed, or `shutdown` has set the promise. -/
inductive StatisticsLabel where
  | udpPacketSent (bits : Int)
  | udpPacketRecieved (bits : Int)
  | waited (timeout : Bool)
  | calculate
deriving DecidableEq

namespace StatisticsState

def setSent (s : StatisticsState) (t : Traffic) (pc : CalculatePc) : StatisticsState :=
  { s with stats := { s.stats with sent := t }, pc }

def setRecieved (s : StatisticsState) (t : Traffic) (pc : CalculatePc) : StatisticsState :=
  { s with stats := { s.stats with recieved := t }, pc }

/-- One assignment of `calculateStats`. -/
def calculate (s : StatisticsState) : Option StatisticsState :=
  match s.pc with
  | .copyRecieved => some (s.setRecieved s.stats.recieved.copy .copySent)
  | .copySent => some (s.setSent s.stats.sent.copy .clearRecieved)
  | .clearRecieved => some (s.setRecieved s.stats.recieved.clear .clearSent)
  | .clearSent => some (s.setSent s.stats.sent.clear .addRecieved)
  | .addRecieved => some (s.setRecieved s.stats.recieved.accumulate .addSent)
  | .addSent => some (s.setSent s.stats.sent.accumulate .maxRecieved)
  | .maxRecieved => some (s.setRecieved s.stats.recieved.raiseMax .maxSent)
  | .maxSent => some (s.setSent s.stats.sent.raiseMax .operatingSeconds)
  | .operatingSeconds =>
    some { s with
      stats := { s.stats with operatingSeconds := s.stats.operatingSeconds + 1 }
      pc := .wait
      sent := s.sent.finish s.stats.sent
      recieved := s.recieved.finish s.stats.recieved }
  | .wait | .returned => none

def next (s : StatisticsState) : StatisticsLabel → Option StatisticsState
  | .udpPacketSent bits =>
    some { s with
      stats := s.stats.udpPacketSent bits
      sent := s.sent.pass s.pc.sentPhase bits }
  | .udpPacketRecieved bits =>
    some { s with
      stats := s.stats.udpPacketRecieved bits
      recieved := s.recieved.pass s.pc.recievedPhase bits }
  | .waited timeout =>
    if s.pc = .wait then
      some { s with pc := if timeout then .copyRecieved else .returned }
    else
      none
  | .calculate => s.calculate

end StatisticsState

def statisticsMachine : Machine StatisticsState StatisticsLabel where
  init s := s = {}
  next := StatisticsState.next

/-! ## 3. The accounts -/

namespace Traffic

/-- Where the amounts passed are, if those lost are counted in. -/
def Balanced (t : Traffic) (a : Account) : Phase → Prop
  | .counting => t.bitsOverall + t.bitsCurrentSecond + a.lost = a.passed
  | .copied => t.bitsOverall + t.bitsLastSecond + a.lost = a.passed
  | .cleared => t.bitsOverall + t.bitsLastSecond + t.bitsCurrentSecond + a.lost = a.passed
  | .raised => t.bitsOverall + t.bitsCurrentSecond + a.lost = a.passed ∧
      t.bitsLastSecond ≤ t.maxThroughput

/-- The counters of one direction account for what happened in it. -/
structure Kept (t : Traffic) (a : Account) (phase : Phase) : Prop where
  balanced : Balanced t a phase
  seconds_le : ∀ bits ∈ a.seconds, bits ≤ t.maxThroughput

namespace Kept

variable {t : Traffic} {a : Account}

/-- A packet between the copy and the clearing goes to those lost, any other into the counter. -/
theorem packet {phase : Phase} (h : Kept t a phase) (bits : Int) :
    Kept (t.packet bits) (a.pass phase bits) phase := by
  refine ⟨?_, h.seconds_le⟩
  have hbalanced := h.balanced
  cases phase
  case counting =>
    show t.bitsOverall + (t.bitsCurrentSecond + bits) + a.lost = a.passed + bits
    have : t.bitsOverall + t.bitsCurrentSecond + a.lost = a.passed := hbalanced
    omega
  case copied =>
    show t.bitsOverall + t.bitsLastSecond + (a.lost + bits) = a.passed + bits
    have : t.bitsOverall + t.bitsLastSecond + a.lost = a.passed := hbalanced
    omega
  case cleared =>
    show t.bitsOverall + t.bitsLastSecond + (t.bitsCurrentSecond + bits) + a.lost = a.passed + bits
    have : t.bitsOverall + t.bitsLastSecond + t.bitsCurrentSecond + a.lost = a.passed := hbalanced
    omega
  case raised =>
    obtain ⟨hsum, hle⟩ := hbalanced
    refine ⟨?_, hle⟩
    show t.bitsOverall + (t.bitsCurrentSecond + bits) + a.lost = a.passed + bits
    omega

theorem copy (h : Kept t a .counting) : Kept t.copy a .copied :=
  ⟨h.balanced, h.seconds_le⟩

theorem clear (h : Kept t a .copied) : Kept t.clear a .cleared := by
  refine ⟨?_, h.seconds_le⟩
  show t.bitsOverall + t.bitsLastSecond + 0 + a.lost = a.passed
  rw [Int.add_zero]
  exact h.balanced

theorem accumulate (h : Kept t a .cleared) : Kept t.accumulate a .counting :=
  ⟨h.balanced, h.seconds_le⟩

theorem raiseMax (h : Kept t a .counting) : Kept t.raiseMax a .raised := by
  unfold Traffic.raiseMax
  split
  next hgt =>
    refine ⟨⟨h.balanced, Int.le_refl _⟩, ?_⟩
    intro bits hbits
    exact Int.le_of_lt (Int.lt_of_le_of_lt (h.seconds_le bits hbits) hgt)
  next hle => exact ⟨⟨h.balanced, Int.not_lt.mp hle⟩, h.seconds_le⟩

theorem finish (h : Kept t a .raised) : Kept t (a.finish t) .counting := by
  refine ⟨h.balanced.1, ?_⟩
  intro bits hbits
  obtain hbits | hbits := List.mem_append.mp hbits
  · exact h.seconds_le bits hbits
  · rw [List.mem_singleton.mp hbits]
    exact h.balanced.2

end Kept

end Traffic

namespace StatisticsState

open Traffic

/-- Both directions are accounted for. -/
structure Valid (s : StatisticsState) : Prop where
  sent : Kept s.stats.sent s.sent s.pc.sentPhase
  recieved : Kept s.stats.recieved s.recieved s.pc.recievedPhase

theorem Valid.calculate {s t : StatisticsState} (h : s.Valid) (hstep : s.calculate = some t) :
    t.Valid := by
  obtain ⟨hsent, hrecieved⟩ := h
  unfold StatisticsState.calculate at hstep
  cases hpc : s.pc <;> rw [hpc] at hsent hrecieved hstep
  case wait => contradiction
  case returned => contradiction
  all_goals obtain rfl := Option.some.inj hstep
  case copyRecieved => exact ⟨hsent, hrecieved.copy⟩
  case copySent => exact ⟨hsent.copy, hrecieved⟩
  case clearRecieved => exact ⟨hsent, hrecieved.clear⟩
  case clearSent => exact ⟨hsent.clear, hrecieved⟩
  case addRecieved => exact ⟨hsent, hrecieved.accumulate⟩
  case addSent => exact ⟨hsent.accumulate, hrecieved⟩
  case maxRecieved => exact ⟨hsent, hrecieved.raiseMax⟩
  case maxSent => exact ⟨hsent.raiseMax, hrecieved⟩
  case operatingSeconds => exact ⟨hsent.finish, hrecieved.finish⟩

/-- A step of any thread keeps the accounts. -/
theorem Valid.next {s t : StatisticsState} {a : StatisticsLabel} (h : s.Valid)
    (hn : s.next a = some t) : t.Valid := by
  cases a with
  | udpPacketSent bits =>
    obtain rfl := Option.some.inj hn
    exact ⟨h.sent.packet bits, h.recieved⟩
  | udpPacketRecieved bits =>
    obtain rfl := Option.some.inj hn
    exact ⟨h.sent, h.recieved.packet bits⟩
  | waited timeout =>
    obtain ⟨hpc, ht⟩ := Option.ite_none_right_eq_some.mp hn
    obtain rfl := Option.some.inj ht
    obtain ⟨hsent, hrecieved⟩ := h
    rw [hpc] at hsent hrecieved
    cases timeout <;> exact ⟨hsent, hrecieved⟩
  | calculate => exact h.calculate hn

theorem valid_of_reach {s : StatisticsState} (h : statisticsMachine.Reach s) : s.Valid := by
  refine h.invariant ?_ fun s a t hs hn => hs.next hn
  rintro s rfl
  exact ⟨⟨rfl, fun _ h => absurd h List.not_mem_nil⟩, ⟨rfl, fun _ h => absurd h List.not_mem_nil⟩⟩

/-! ## 4. The roll-over -/

/-- Overall and current counters add up to what was passed, and no finished second had more than the
greatest throughput. -/
structure RollsOver (t : Traffic) (a : Account) : Prop where
  total : t.bitsOverall + t.bitsCurrentSecond = a.passed
  seconds_le : ∀ bits ∈ a.seconds, bits ≤ t.maxThroughput

-- At a boundary of the loop nothing is on its way between the counters.
theorem atBoundary_phases {pc : CalculatePc} (h : pc.atBoundary = true) :
    pc.sentPhase = .counting ∧ pc.recievedPhase = .counting := by
  cases pc
  case wait => exact ⟨rfl, rfl⟩
  case returned => exact ⟨rfl, rfl⟩
  all_goals contradiction

theorem rollsOver_iff {t : Traffic} {a : Account} (h : Kept t a .counting) :
    RollsOver t a ↔ a.lost = 0 := by
  have hbalanced : t.bitsOverall + t.bitsCurrentSecond + a.lost = a.passed := h.balanced
  constructor
  · intro hrolls
    have htotal := hrolls.total
    omega
  · intro hlost
    refine ⟨?_, h.seconds_le⟩
    omega

/-- At every boundary the accounts are right exactly if the amounts lost add up to nothing. -/
theorem rollsOver_iff_lost {s : StatisticsState} (h : statisticsMachine.Reach s)
    (hboundary : s.pc.atBoundary = true) :
    (RollsOver s.stats.sent s.sent ↔ s.sent.lost = 0) ∧
      (RollsOver s.stats.recieved s.recieved ↔ s.recieved.lost = 0) := by
  obtain ⟨hsent, hrecieved⟩ := valid_of_reach h
  obtain ⟨hsentPhase, hrecievedPhase⟩ := atBoundary_phases hboundary
  rw [hsentPhase] at hsent
  rw [hrecievedPhase] at hrecieved
  exact ⟨rollsOver_iff hsent, rollsOver_iff hrecieved⟩

/-- No amount but 0 is added between the copy of its counter and the clearing. -/
def OutsideCopy (s : StatisticsState) : StatisticsLabel → Prop
  | .udpPacketSent bits => s.pc.sentPhase = .copied → bits = 0
  | .udpPacketRecieved bits => s.pc.recievedPhase = .copied → bits = 0
  | _ => True

instance (s : StatisticsState) : (a : StatisticsLabel) → Decidable (OutsideCopy s a)
  | .udpPacketSent bits => inferInstanceAs (Decidable (s.pc.sentPhase = .copied → bits = 0))
  | .udpPacketRecieved bits => inferInstanceAs (Decidable (s.pc.recievedPhase = .copied → bits = 0))
  | .waited _ => isTrue trivial
  | .calculate => isTrue trivial

theorem pass_lost {a : Account} {phase : Phase} {bits : Int} (hlost : a.lost = 0)
    (hbits : phase = .copied → bits = 0) : (a.pass phase bits).lost = 0 := by
  show (if phase = .copied then a.lost + bits else a.lost) = 0
  split
  next hcopied => rw [hlost, hbits hcopied, Int.add_zero]
  next => exact hlost

theorem calculate_lost {s t : StatisticsState} (hstep : s.calculate = some t) :
    t.sent.lost = s.sent.lost ∧ t.recieved.lost = s.recieved.lost := by
  unfold StatisticsState.calculate at hstep
  cases hpc : s.pc <;> rw [hpc] at hstep
  case wait => contradiction
  case returned => contradiction
  all_goals
    obtain rfl := Option.some.inj hstep
    exact ⟨rfl, rfl⟩

-- Under the condition nothing is lost.
theorem lost_of_reachWhile {s : StatisticsState} (h : statisticsMachine.ReachWhile OutsideCopy s) :
    s.sent.lost = 0 ∧ s.recieved.lost = 0 := by
  refine h.invariant (I := fun s => s.sent.lost = 0 ∧ s.recieved.lost = 0) ?_ ?_
  · rintro s rfl
    exact ⟨rfl, rfl⟩
  · intro s a t hs hok hn
    cases a with
    | udpPacketSent bits =>
      obtain rfl := Option.some.inj hn
      exact ⟨pass_lost hs.1 hok, hs.2⟩
    | udpPacketRecieved bits =>
      obtain rfl := Option.some.inj hn
      exact ⟨hs.1, pass_lost hs.2 hok⟩
    | waited timeout =>
      obtain ⟨-, ht⟩ := Option.ite_none_right_eq_some.mp hn
      obtain rfl := Option.some.inj ht
      exact hs
    | calculate =>
      obtain ⟨hsent, hrecieved⟩ := calculate_lost hn
      rw [hsent, hrecieved]
      exact hs

/-- **The roll-over loses no traffic in a run that adds none between a copy and its clearing.** -/
theorem rollsOver_of_reachWhile {s : StatisticsState}
    (h : statisticsMachine.ReachWhile OutsideCopy s) (hboundary : s.pc.atBoundary = true) :
    RollsOver s.stats.sent s.sent ∧ RollsOver s.stats.recieved s.recieved := by
  obtain ⟨hsent, hrecieved⟩ := rollsOver_iff_lost h.reach hboundary
  obtain ⟨hlostSent, hlostRecieved⟩ := lost_of_reachWhile h
  exact ⟨hsent.mpr hlostSent, hrecieved.mpr hlostRecieved⟩

/-- After a second in which one packet of 8 bits was sent. -/
def afterSecond : StatisticsState where
  stats := {
    sent := { udpPackets := 1, bitsOverall := 8, bitsLastSecond := 8, maxThroughput := 8 }
    operatingSeconds := 1 }
  sent := { passed := 8, seconds := [8] }
  recieved := { seconds := [0] }

theorem rollsOver_of_reachWhile_second :
    RollsOver afterSecond.stats.sent afterSecond.sent ∧
      RollsOver afterSecond.stats.recieved afterSecond.recieved :=
  have hrun : statisticsMachine.runWhile OutsideCopy {}
      (.udpPacketSent 8 :: .waited true :: List.replicate 9 .calculate) = some afterSecond := by
    decide
  rollsOver_of_reachWhile ⟨{}, rfl, Machine.leads_of_runWhile hrun⟩ rfl

/-- After a second in which one was sent between the copy of the counter and its clearing. -/
def afterLoss : StatisticsState where
  stats := { sent := { udpPackets := 1 }, operatingSeconds := 1 }
  sent := { passed := 8, lost := 8, seconds := [0] }
  recieved := { seconds := [0] }

theorem packet_lost :
    ¬ ∀ s, statisticsMachine.Reach s → s.pc.atBoundary = true → RollsOver s.stats.sent s.sent := by
  intro hclaim
  have hrun : statisticsMachine.run {}
      (.waited true :: .calculate :: .calculate :: .udpPacketSent 8 ::
        List.replicate 7 .calculate) = some afterLoss := by
    decide
  have htotal := (hclaim afterLoss (Machine.reach_of_run rfl hrun) rfl).total
  exact absurd htotal (by decide)

end StatisticsState

end NetShare
