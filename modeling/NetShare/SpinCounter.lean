import NetShare.SessionSteps

/-!
# The spin counter of `ReceivePackets`

`runFor` as the 32-bit `int` it is.  The loop lowers it at the head of every iteration and sets it
back only where it finds the ring empty and the counter used up, so how far it falls is how long
the ring goes on holding packets.
-/

namespace NetShare

open Reasoning

variable {α : Type}

/-! ## 1. The loop -/

/-- `ReceivePackets` alone; `iterations` are those since `runFor` was last set to 11. -/
structure SpinLoop (α : Type) where
  pc : ReceivePc α := .test
  runFor : Int32 := 11
  iterations : Nat := 0
deriving DecidableEq

namespace SpinLoop

/-- One iteration, from the decrement to where the loop goes on. -/
def read (s : SpinLoop α) (result : WintunRead α) : SpinLoop α :=
  let runFor := s.runFor - 1
  let iterations := s.iterations + 1
  match result with
  | .packet p => { pc := .copy p, runFor, iterations }
  | .failed lastError =>
    if lastError = ERROR_NO_MORE_ITEMS then
      if runFor ≤ 0 then { pc := .wait, runFor := 11, iterations := 0 }
      else { pc := .test, runFor, iterations }
    else { pc := .returned (.readFailed lastError), runFor, iterations }

/-- A step of the thread, which finds `isRunning` in the flag. -/
def step (s : SpinLoop α) (isRunning : Bool) : ReceiveAct α → Option (SpinLoop α)
  | .run =>
    match s.pc with
    | .test => some { s with pc := if isRunning then .receive else .returned .stopped }
    | .copy _ => some { s with pc := .test }
    | .wait => some { s with pc := .test }
    | _ => none
  | .read result =>
    match s.pc with
    | .receive => some (s.read result)
    | _ => none
  | .throws =>
    match s.pc with
    | .copy _ => some { s with pc := .returned .exception }
    | _ => none

end SpinLoop

/-- The runs of the loop: any flag, any answers of the ring. -/
def spinMachine (α : Type) : Machine (SpinLoop α) (Bool × ReceiveAct α) where
  init s := s = {}
  next s a := s.step a.1 a.2

/-! ## 2. What is asked of it -/

/-- At the head of an iteration: the decrement stays in an `int`, and if this is at least the
eleventh iteration and the ring is empty, the thread waits. -/
structure SpinSafe (s : SpinLoop α) : Prop where
  noOverflow : s.pc = .receive → -2 ^ 31 ≤ s.runFor.toInt - 1
  waits : s.pc = .receive → 11 ≤ s.iterations + 1 →
    (s.read (.failed ERROR_NO_MORE_ITEMS)).pc = .wait

/-- No iteration is begun after `2 ^ 31 + 11` that have not set the counter back. -/
def ShortSpin (s : SpinLoop α) : Prop := s.pc = .receive → s.iterations < 2 ^ 31 + 11

instance [DecidableEq α] (s : SpinLoop α) : Decidable (ShortSpin s) :=
  inferInstanceAs (Decidable (_ → _))

/-- Every step of a run is taken so. -/
def EveryShortSpin (s : SpinLoop α) (_ : Bool × ReceiveAct α) : Prop := ShortSpin s

instance [DecidableEq α] (s : SpinLoop α) (a : Bool × ReceiveAct α) :
    Decidable (EveryShortSpin s a) := inferInstanceAs (Decidable (ShortSpin s))

/-! ## 3. The counter along a run -/

theorem toInt_pred {x : Int32} (h : -2 ^ 31 < x.toInt) : (x - 1).toInt = x.toInt - 1 := by
  have hone : (1 : Int32).toInt = 1 := rfl
  have hlt := x.toInt_lt
  rw [Int32.toInt_sub, hone]
  exact Int.bmod_eq_of_le (by omega) (by omega)

-- Below the least value comes the greatest.
theorem toInt_pred_least {x : Int32} (h : x.toInt = -2 ^ 31) : (x - 1).toInt = 2 ^ 31 - 1 := by
  have hone : (1 : Int32).toInt = 1 := rfl
  rw [Int32.toInt_sub, hone, h]
  rfl

/-- A step is an iteration, or leaves the counter alone. -/
theorem SpinLoop.step_cases {s s' : SpinLoop α} {isRunning : Bool} {a : ReceiveAct α}
    (h : s.step isRunning a = some s') :
    (∃ result, a = .read result ∧ s.pc = .receive ∧ s' = s.read result) ∨
      (∃ pc, s' = { s with pc }) := by
  cases a with
  | run =>
    cases hpc : s.pc <;> simp only [SpinLoop.step, hpc, reduceCtorEq] at h <;>
      exact .inr ⟨_, (Option.some.inj h).symm⟩
  | read result =>
    cases hpc : s.pc <;> simp only [SpinLoop.step, hpc, reduceCtorEq] at h
    exact .inl ⟨result, rfl, rfl, (Option.some.inj h).symm⟩
  | throws =>
    cases hpc : s.pc <;> simp only [SpinLoop.step, hpc, reduceCtorEq] at h
    exact .inr ⟨_, (Option.some.inj h).symm⟩

/-- `runFor` is 11 less the iterations since. -/
def SpinCounts (s : SpinLoop α) : Prop := s.runFor.toInt = 11 - (s.iterations : Int)

namespace SpinCounts

variable {s s' : SpinLoop α}

theorem new : SpinCounts ({} : SpinLoop α) := (rfl : (11 : Int32).toInt = 11)

theorem pred (h : SpinCounts s) (hlt : s.iterations < 2 ^ 31 + 11) :
    (s.runFor - 1).toInt = 11 - ((s.iterations + 1 : Nat) : Int) := by
  have hnow : s.runFor.toInt = 11 - (s.iterations : Int) := h
  rw [toInt_pred (by omega), hnow]
  omega

theorem read (h : SpinCounts s) (hlt : s.iterations < 2 ^ 31 + 11) (result : WintunRead α) :
    SpinCounts (s.read result) := by
  have hpred := h.pred hlt
  cases result with
  | packet p => exact hpred
  | failed lastError =>
    unfold SpinLoop.read
    dsimp only
    split
    · split
      · exact new (α := α)
      · exact hpred
    · exact hpred

theorem next (h : SpinCounts s) {a : Bool × ReceiveAct α} (hok : EveryShortSpin s a)
    (hn : (spinMachine α).next s a = some s') : SpinCounts s' := by
  obtain ⟨result, -, hpc, rfl⟩ | ⟨pc, rfl⟩ := SpinLoop.step_cases hn
  · exact h.read (hok hpc) result
  · exact h

theorem of_reachWhile (h : (spinMachine α).ReachWhile EveryShortSpin s) : SpinCounts s :=
  h.invariant (fun _ hnew => hnew ▸ new) fun _ _ _ hs hok hn => hs.next hok hn

end SpinCounts

/-- Where the ring is found empty, what is left of the counter decides. -/
theorem SpinLoop.read_empty (s : SpinLoop α) :
    (s.read (.failed ERROR_NO_MORE_ITEMS)).pc =
      if (s.runFor - 1).toInt ≤ 0 then .wait else .test := by
  have hzero : s.runFor - 1 ≤ 0 ↔ (s.runFor - 1).toInt ≤ 0 := Int32.le_iff_toInt_le
  simp only [SpinLoop.read, if_true, hzero]
  split <;> rfl

/-! ## 4. How far the counter falls -/

/-- **After a run none of whose iterations was begun after `2 ^ 31 + 11` that had not set the
counter back, the state is safe exactly if none is begun so there either.** -/
theorem spin_safe_iff {s : SpinLoop α} (h : (spinMachine α).ReachWhile EveryShortSpin s) :
    SpinSafe s ↔ ShortSpin s := by
  have hcounts := SpinCounts.of_reachWhile h
  have hnow : s.runFor.toInt = 11 - (s.iterations : Int) := hcounts
  constructor
  · intro hsafe hpc
    have hleast := hsafe.noOverflow hpc
    omega
  · intro hshort
    refine ⟨fun hpc => ?_, fun hpc hmany => ?_⟩
    · have hlt := hshort hpc
      omega
    · have hpred := hcounts.pred (hshort hpc)
      rw [SpinLoop.read_empty, if_pos (by omega)]

/-- Eleven empty rings, the last of them waited for, and the next iteration. -/
theorem spin_safe_iff_waited :
    let s := ((spinMachine Nat).runWhile EveryShortSpin {}
      ((List.replicate 11 [(true, ReceiveAct.run),
        (true, .read (.failed ERROR_NO_MORE_ITEMS))]).flatten ++
        [(true, .run), (true, .run)])).get (by decide)
    SpinSafe s ↔ ShortSpin s :=
  spin_safe_iff ⟨_, rfl, Machine.leads_of_runWhile (Option.some_get _).symm⟩

/-- While packets keep coming nothing sets the counter back. -/
theorem spin_reach (p : α) (k : Nat) (hk : k ≤ 2 ^ 31 + 11) :
    ∃ s : SpinLoop α, (spinMachine α).ReachWhile EveryShortSpin s ∧ s.pc = .receive ∧
      s.iterations = k := by
  induction k with
  | zero =>
    have hfirst : (spinMachine α).next {} (true, .run) = some { pc := .receive } := rfl
    exact ⟨_, Machine.ReachWhile.next ⟨_, rfl, .refl⟩ (nofun) hfirst, rfl, rfl⟩
  | succ k ih =>
    obtain ⟨s, hs, hpc, hcount⟩ := ih (by omega)
    have hshort : EveryShortSpin s (true, .read (.packet p)) := fun _ => by omega
    have hread : (spinMachine α).next s (true, .read (.packet p)) =
        some { pc := .copy p, runFor := s.runFor - 1, iterations := s.iterations + 1 } := by
      simp only [spinMachine, SpinLoop.step, hpc]
      rfl
    have hcopied := (hs.next hshort hread).next (a := (true, .run)) (nofun) rfl
    have htested := hcopied.next (a := (true, .run)) (nofun) rfl
    exact ⟨_, htested, rfl, congrArg (· + 1) hcount⟩

/-- `2 ^ 31 + 11` packets in a row: the next decrement leaves the `int`. -/
theorem spin_overflows :
    ¬ ∀ s : SpinLoop Nat, (spinMachine Nat).Reach s → SpinSafe s := by
  intro hclaim
  obtain ⟨s, hs, hpc, hcount⟩ := spin_reach (0 : Nat) (2 ^ 31 + 11) (Nat.le_refl _)
  have hnow : s.runFor.toInt = 11 - (s.iterations : Int) := SpinCounts.of_reachWhile hs
  have hleast := (hclaim s hs.reach).noOverflow hpc
  omega

/-- After that iteration the loop finds the ring empty and goes on spinning, with the greatest
`int` in the counter. -/
theorem spins_on {s : SpinLoop α} (h : (spinMachine α).ReachWhile EveryShortSpin s)
    (hcount : s.iterations = 2 ^ 31 + 11) :
    (s.read (.failed ERROR_NO_MORE_ITEMS)).pc = .test ∧
      (s.runFor - 1).toInt = 2 ^ 31 - 1 := by
  have hnow : s.runFor.toInt = 11 - (s.iterations : Int) := SpinCounts.of_reachWhile h
  have hgreatest := toInt_pred_least (x := s.runFor) (by omega)
  rw [SpinLoop.read_empty, if_neg (by omega)]
  exact ⟨rfl, hgreatest⟩

/-! ## 5. The loop in a session -/

/-- The thread as the session has it, with an unbounded counter. -/
def SpinLoop.thread (s : SpinLoop α) : ReceivePackets α :=
  { pc := s.pc, runFor := s.runFor.toInt }

/-- No iteration begins with the least value in the counter. -/
def AboveLeast {n : Nat} (s : Session α n) : Prop :=
  s.outgoing.receivePackets.pc = .receive → -2 ^ 31 < s.outgoing.receivePackets.runFor

/-- A step of the thread in a session is a step of the loop alone. -/
theorem SpinLoop.step_thread {n : Nat} {o : OutgoingPath α n} {s : SpinLoop α}
    (hview : o.receivePackets = s.thread) (hok : s.pc = .receive → -2 ^ 31 < s.runFor.toInt)
    (isRunning : Bool) (a : ReceiveAct α) :
    (o.stepReceive isRunning a).map (·.receivePackets) = (s.step isRunning a).map thread := by
  have hpc' : o.receivePackets.pc = s.pc := by rw [hview]; rfl
  have hrun' : o.receivePackets.runFor = s.runFor.toInt := by rw [hview]; rfl
  cases a with
  | run =>
    cases hpc : s.pc <;>
      simp [OutgoingPath.stepReceive, SpinLoop.step, hpc', hpc, OutgoingPath.setReceive, hrun',
        thread, OutgoingPath.pushPacket]
  | read result =>
    cases hpc : s.pc <;> simp only [OutgoingPath.stepReceive, SpinLoop.step, hpc', hpc] <;> try rfl
    have hpred := toInt_pred (hok hpc)
    have hzero : s.runFor - 1 ≤ 0 ↔ s.runFor.toInt - 1 ≤ 0 := by
      rw [← hpred]
      exact Int32.le_iff_toInt_le
    cases result with
    | packet p => simp [SpinLoop.read, thread, hpred, hrun']
    | failed lastError =>
      simp only [SpinLoop.read, hrun', hzero]
      split
      · split
        · rfl
        · simp [thread, hpred]
      · simp [thread, hpred]
  | throws =>
    cases hpc : s.pc <;>
      simp [OutgoingPath.stepReceive, SpinLoop.step, hpc', hpc, OutgoingPath.setReceive, hrun',
        thread]

/-- No other step of a session moves the thread. -/
theorem Session.next_receivePackets {packetSize : α → Nat} {n : Nat} {s t : Session α n}
    {a : SessionLabel α n} (hn : s.next packetSize a = some t) :
    (∃ b, (s.outgoing.stepReceive s.isRunning b).map (·.receivePackets) =
        some t.outgoing.receivePackets ∧ a = .receivePackets b) ∨
      t.outgoing.receivePackets = s.outgoing.receivePackets := by
  cases a with
  | receivePackets b =>
    obtain ⟨o, ho, rfl⟩ := Option.map_eq_some_iff.mp hn
    exact .inl ⟨b, by rw [ho]; rfl, rfl⟩
  | sender i b =>
    obtain ⟨o, ho, rfl⟩ := Option.map_eq_some_iff.mp hn
    refine .inr ?_
    cases OutgoingPath.stepSender_cases ho <;> rfl
  | sendPackets b =>
    obtain ⟨c, -, rfl⟩ := Option.map_eq_some_iff.mp hn
    exact .inr rfl
  | receiver i b =>
    obtain ⟨c, -, rfl⟩ := Option.map_eq_some_iff.mp hn
    exact .inr rfl
  | shutdown =>
    simp only [Session.next, stepShutdown] at hn
    refine .inr ?_
    split at hn <;> first | contradiction | (obtain rfl := Option.some.inj hn; rfl)

/-- The thread of a session and the loop alone, both with the iterations counted. -/
structure Session.SpinsAs {n : Nat} (s : Session α n) (t : SpinLoop α) : Prop where
  thread_eq : s.outgoing.receivePackets = t.thread
  counts : SpinCounts t

namespace Session.SpinsAs

variable {n : Nat} {s s' : Session α n} {t : SpinLoop α}

theorem above (h : s.SpinsAs t) (habove : AboveLeast s) :
    t.pc = .receive → -2 ^ 31 < t.runFor.toInt := by
  rw [AboveLeast, h.thread_eq] at habove
  exact habove

theorem shortSpin (h : s.SpinsAs t) (habove : AboveLeast s) : ShortSpin t := by
  intro hpc
  have hnow : t.runFor.toInt = 11 - (t.iterations : Int) := h.counts
  have hleast := h.above habove hpc
  omega

theorem next {packetSize : α → Nat} {a : SessionLabel α n} (h : s.SpinsAs t)
    (habove : AboveLeast s) (hn : s.next packetSize a = some s') :
    ∃ t', (spinMachine α).Leads EveryShortSpin t t' ∧ s'.SpinsAs t' := by
  obtain ⟨b, hb, rfl⟩ | hsame := next_receivePackets hn
  · rw [SpinLoop.step_thread h.thread_eq (h.above habove), Option.map_eq_some_iff] at hb
    obtain ⟨t', ht', hthread⟩ := hb
    have hstep : (spinMachine α).next t (s.isRunning, b) = some t' := ht'
    have hshort := h.shortSpin habove
    exact ⟨t', .single ⟨_, hshort, hstep⟩, hthread.symm, h.counts.next hshort hstep⟩
  · exact ⟨t, .refl, hsame.trans h.thread_eq, h.counts⟩

end Session.SpinsAs

/-- **As long as no iteration of it begins with the least `int`, a session has the counter of the
code.** -/
theorem session_spins {packetSize : α → Nat} {n : Nat} {s : Session α n}
    (h : (sessionMachine packetSize n).ReachWhile (fun s _ => AboveLeast s) s) :
    ∃ t, (spinMachine α).ReachWhile EveryShortSpin t ∧ s.SpinsAs t := by
  refine h.simulate ?_ fun s t a s' hspins habove hn => hspins.next habove hn
  rintro _ ⟨capacity, server, -, rfl⟩
  exact ⟨{}, rfl, rfl, SpinCounts.new⟩

end NetShare
