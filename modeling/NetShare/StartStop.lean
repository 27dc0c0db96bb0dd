import NetShare.Connections

/-!
# Starts and stops exclude each other, up to the guards

The guards of a start and of `shutdown` are tests of a plain flag, `exited`.  As long as no guard is
evaluated at the wrong moment, `exited` tells what the one thread is doing that is inside a start or
a teardown, and so keeps the others out.
-/

namespace NetShare

open Reasoning

variable {k : Nat}

/-! ## 1. Being inside -/

namespace ConnectionPc

/-- Inside a start, from entering `initRun` to the return of `run`, or inside the body of
`shutdown`. -/
def inside : ConnectionPc → Bool
  | .initRun _ _ | .callRun _ | .run _ _ | .shutdown (.run _) _ => true
  | .shutdown _ .test => false
  | .shutdown _ _ => true
  | _ => false

/-- The value that `exited` has while a thread that has passed its guard is here, if no other thread
interferes; `none` where the thread has not passed a guard. -/
def exitedAt : ConnectionPc → Option Bool
  | .callInitRun => some true
  | .initRun _ .clearCrash | .initRun _ .setRunning | .initRun _ .clearStartingUp => some true
  | .initRun outcome (.ret false) => some (!outcome.leavesFlags)
  | .initRun _ _ | .callRun _ => some false
  | .run outcome .registerExit | .run outcome .clearStartingUp | .run outcome .ret =>
    some (!outcome.setConsoleCtrlHandler)
  | .run _ _ | .shutdown (.run _) .test => some false
  | .shutdown _ .test => none
  | .shutdown _ .readStats | .shutdown _ .setExited => some false
  | .shutdown _ _ => some true
  | _ => none

/-- The value of `exited` on which the guard here lets the thread pass. -/
def guardPasses : ConnectionPc → Option Bool
  | .runTestRunning => some true
  | .shutdown (.run _) .test => none
  | .shutdown _ .test => some false
  | _ => none

/-- The outcome of the start agrees with how far it has come. -/
def Consistent : ConnectionPc → Prop
  | .initRun outcome .checkAdapters => outcome.configFile.internalConfig?.isSome = true
  | .initRun outcome .initializeWintun | .initRun outcome .generateUDPConfigs
  | .initRun outcome .getAdapterHandle | .initRun outcome .startSession
  | .initRun outcome .setExited | .initRun outcome .clearStartingUp =>
    outcome.leavesFlags = false
  | .shutdown (.run outcome) _ => outcome.setConsoleCtrlHandler = false
  | _ => True

-- Nobody is inside without having passed a guard.
theorem exitedAt_of_inside {pc : ConnectionPc} (h : pc.inside = true) : pc.exitedAt ≠ none := by
  cases pc with
  | callRun outcome => exact Option.some_ne_none _
  | initRun outcome pc =>
    cases pc with
    | ret successful => cases successful <;> exact Option.some_ne_none _
    | _ => exact Option.some_ne_none _
  | run outcome pc => cases pc <;> exact Option.some_ne_none _
  | shutdown caller pc =>
    cases caller <;> cases pc <;> first | contradiction | exact Option.some_ne_none _
  | _ => contradiction

/-- A thread that has passed its guard is inside, or about to enter `initRun`. -/
theorem inside_or_callInitRun {pc : ConnectionPc} {b : Bool} (h : pc.exitedAt = some b) :
    pc.inside = true ∨ (pc = .callInitRun ∧ b = true) := by
  cases pc with
  | callInitRun => exact .inr ⟨rfl, (Option.some.inj h).symm⟩
  | callRun outcome => exact .inl rfl
  | initRun outcome pc => exact .inl rfl
  | run outcome pc => exact .inl rfl
  | shutdown caller pc => cases caller <;> cases pc <;> first | contradiction | exact .inl rfl
  | _ => contradiction

end ConnectionPc

/-- A thread together with the application is in order: it is consistent, and if it has passed its
guard then `exited` is what its control point says. -/
structure Thread.Ordered (t : Thread) : Prop where
  consistent : t.pc.Consistent
  flag : ∀ b, t.pc.exitedAt = some b → t.app.exited = b

/-! ## 2. One thread -/

namespace Thread

-- Outside, nothing is asked of the flag.
theorem ordered_outside {t : Thread} (hc : t.pc.Consistent) (hout : t.pc.exitedAt = none) :
    t.Ordered where
  consistent := hc
  flag b hb := by
    rw [hout] at hb
    contradiction

/-- A statement that may be a fault and leaves `exited` alone. -/
theorem Ordered.update {t : Thread} (h : t.Ordered) {app : Option Application} {pc : ConnectionPc}
    (hexited : ∀ app', app = some app' → app'.exited = t.app.exited) (hpc : pc.Consistent)
    (hflag : pc.exitedAt = t.pc.exitedAt) : (t.update app pc).Ordered := by
  cases app with
  | none => exact ⟨h.consistent, h.flag⟩
  | some app' =>
    refine ⟨hpc, fun b hb => ?_⟩
    show app'.exited = b
    rw [hexited app' rfl]
    exact h.flag b (hflag ▸ hb)

-- `exited` is false from its assignment at the head to the failing exits that set it again.
theorem stepInitRun_ordered {t : Thread} {outcome : StartOutcome} {pc : InitRunPc}
    (hpc : t.pc = .initRun outcome pc) (h : t.Ordered) : (t.stepInitRun outcome pc).Ordered := by
  have hc := h.consistent
  have hf := h.flag
  rw [hpc] at hc hf
  cases pc with
  | clearCrash => exact ⟨trivial, hf⟩
  | setRunning => exact ⟨trivial, fun b hb => Option.some.inj hb⟩
  | setStartingUp => exact ⟨trivial, hf⟩
  | readConfig =>
    unfold stepInitRun
    dsimp only
    split
    next hconf =>
      refine ⟨trivial, fun b hb => ?_⟩
      have hleaves : outcome.leavesFlags = true := by
        rw [StartOutcome.leavesFlags, hconf]
        rfl
      rw [← Option.some.inj hb, hleaves]
      exact hf false rfl
    next internalConfig hconf =>
      refine h.update (fun app' happ => ?_) ?_ (by rw [hpc]; rfl)
      · obtain ⟨-, happ⟩ := Option.ite_none_left_eq_some.mp happ
        rw [← Option.some.inj happ]
      · show outcome.configFile.internalConfig?.isSome = true
        rw [hconf]
        rfl
  | checkAdapters =>
    unfold stepInitRun
    dsimp only
    split
    next hn =>
      have hleaves : outcome.leavesFlags = true := by
        rw [StartOutcome.leavesFlags, hn]
        simp
      refine h.update (fun app' happ => ?_) trivial ?_
      · obtain ⟨app, hconf, rfl⟩ := Option.map_eq_some_iff.mp happ
        exact (Application.withConf_flags hconf).exited
      · rw [hpc]
        exact congrArg (fun b => some !b) hleaves
    next hn =>
      refine ⟨?_, hf⟩
      show outcome.leavesFlags = false
      rw [StartOutcome.leavesFlags, beq_eq_false_iff_ne.mpr hn, Bool.or_false]
      have hsome : outcome.configFile.internalConfig?.isSome = true := hc
      cases hopt : outcome.configFile.internalConfig? with
      | none => rw [hopt] at hsome; contradiction
      | some c => rfl
  | initializeWintun =>
    unfold stepInitRun
    dsimp only
    split
    · exact ⟨hc, hf⟩
    · exact ⟨hc, hf⟩
  | generateUDPConfigs =>
    refine h.update (fun app' happ => ?_) hc (by rw [hpc]; rfl)
    obtain ⟨app, hconf, rfl⟩ := Option.map_eq_some_iff.mp happ
    exact (Application.withConf_flags hconf).exited
  | getAdapterHandle =>
    refine h.update (fun app' happ => (Application.withConf_flags happ).exited) ?_ ?_
    · split <;> exact hc
    · rw [hpc]
      split <;> rfl
  | startSession =>
    refine h.update (fun app' happ => (Application.withConf_flags happ).exited) ?_ ?_
    · split
      · trivial
      · exact hc
    · rw [hpc]
      split <;> rfl
  | setExited => exact ⟨hc, fun b hb => Option.some.inj hb⟩
  | clearStartingUp =>
    refine ⟨trivial, fun b hb => ?_⟩
    have hleaves : outcome.leavesFlags = false := hc
    rw [← Option.some.inj hb, hleaves]
    exact hf true rfl
  | ret successful =>
    cases successful with
    | true => exact ⟨trivial, hf⟩
    | false => exact ordered_outside trivial rfl

-- Here only the call of `shutdown` after a failing `SetConsoleCtrlHandler` changes it.
theorem stepRun_ordered {t : Thread} {outcome : StartOutcome} {pc : RunPc}
    (hpc : t.pc = .run outcome pc) (h : t.Ordered) : (t.stepRun outcome pc).Ordered := by
  have hf := h.flag
  rw [hpc] at hf
  cases pc with
  | setRunning =>
    refine h.update (fun app' happ => ?_) trivial (by rw [hpc]; rfl)
    exact (Application.withConf_flags happ).exited
  | createWorkers =>
    refine h.update (fun app' happ => ?_) trivial (by rw [hpc]; rfl)
    obtain ⟨size, -, rfl⟩ := Option.map_eq_some_iff.mp happ
    rfl
  | startThreads =>
    unfold stepRun
    dsimp only
    split
    · refine h.update (fun app' happ => ?_) trivial (by rw [hpc]; rfl)
      split at happ
      · rw [Option.some.inj happ]
      · contradiction
    · exact ⟨h.consistent, h.flag⟩
  | setCtrlHandler =>
    unfold stepRun
    dsimp only
    split
    next hctrl =>
      refine ⟨trivial, fun b hb => ?_⟩
      rw [← Option.some.inj hb, hctrl]
      exact hf false rfl
    next hctrl => exact ⟨Bool.eq_false_iff.mpr hctrl, hf⟩
  | registerExit => exact ⟨trivial, hf⟩
  | clearStartingUp => exact ⟨trivial, hf⟩
  | ret => exact ordered_outside trivial rfl

/-- Where a caller goes on it is outside again, but for `run`. -/
theorem resume_ordered {t : Thread} {caller : ShutdownCaller}
    (hc : ConnectionPc.Consistent (.shutdown caller .ret))
    (hexited : ∀ outcome, caller = .run outcome → t.app.exited = true) :
    (t.goto caller.resume).Ordered := by
  cases caller with
  | run outcome =>
    refine ⟨trivial, fun b hb => ?_⟩
    have hctrl : outcome.setConsoleCtrlHandler = false := hc
    rw [← Option.some.inj hb, hctrl]
    exact hexited outcome rfl
  | _ => exact ordered_outside trivial rfl

-- In the body the flag is set by the second statement and kept by the others.
theorem stepShutdown_ordered {t : Thread} {caller : ShutdownCaller} {pc : TeardownPc}
    (hpc : t.pc = .shutdown caller pc) (h : t.Ordered) : (t.stepShutdown caller pc).Ordered := by
  have hc := h.consistent
  have hf := h.flag
  rw [hpc] at hc hf
  have hcaller : ∀ pc', ConnectionPc.Consistent (.shutdown caller pc') := by
    intro pc'
    cases caller <;> cases pc <;> cases pc' <;> exact hc
  cases pc with
  | test =>
    unfold stepShutdown
    dsimp only
    split
    next hex => exact resume_ordered (hcaller _) fun _ _ => hex
    next hex =>
      refine ⟨hcaller _, fun b hb => ?_⟩
      have hb' : b = false := by cases caller <;> exact (Option.some.inj hb).symm
      rw [hb']
      exact Bool.eq_false_iff.mpr hex
  | readStats =>
    refine h.update (fun app' happ => ?_) (hcaller _) (by rw [hpc]; cases caller <;> rfl)
    exact (Application.withConf_flags happ).exited
  | setExited =>
    exact ⟨hcaller _, fun b hb => by cases caller <;> exact Option.some.inj hb⟩
  | stopWorkers =>
    refine h.update (fun app' happ => ?_) (hcaller _) (by rw [hpc]; cases caller <;> rfl)
    exact (Application.stopWorkers_flags happ).exited
  | clearWorkers =>
    refine h.update (fun app' happ => ?_) (hcaller _) (by rw [hpc]; cases caller <;> rfl)
    exact (Application.clearWorkers_flags happ).exited
  | endSession =>
    refine h.update (fun app' happ => ?_) (hcaller _) (by rw [hpc]; cases caller <;> rfl)
    exact (Application.endSession_flags happ).exited
  | clearConf =>
    refine h.update (fun app' happ => ?_) (hcaller _) (by rw [hpc]; cases caller <;> rfl)
    exact (Application.clearConf_flags happ).exited
  | ret =>
    apply resume_ordered (hcaller _)
    intro outcome hrun
    exact hf true (by rw [hrun]; rfl)

/-- Outside, a thread leaves `exited` alone, and gets inside only through a guard. -/
theorem step_outside {t t' : Thread} {outcome : StartOutcome} (h : t.step outcome = some t')
    (hout : t.pc.exitedAt = none) :
    t'.app.exited = t.app.exited ∧ ∀ b, t'.pc.exitedAt = some b → t.pc.guardPasses = some b := by
  obtain ⟨app, pc, sent, alive⟩ := t
  have hnone : ∀ {b : Bool} {p : Prop}, none = some b → p := by
    intro b p heq
    contradiction
  cases pc with
  | receive => contradiction
  | closed => contradiction
  | callInitRun => contradiction
  | callRun o => contradiction
  | initRun o pc => cases pc with
    | ret successful => cases successful <;> contradiction
    | _ => contradiction
  | run o pc => cases pc <;> contradiction
  | runTestRunning =>
    simp only [step, Option.some.injEq] at h
    subst h
    split
    · exact ⟨rfl, fun b hb => hnone hb⟩
    · exact ⟨rfl, fun b hb => hb⟩
  | shutdown caller pc =>
    simp only [step, Option.some.injEq] at h
    subst h
    cases pc with
    | test =>
      simp only [stepShutdown]
      split
      · cases caller with
        | run o => contradiction
        | _ => exact ⟨rfl, fun b hb => hnone hb⟩
      · cases caller with
        | run o => contradiction
        | _ => exact ⟨rfl, fun b hb => hb⟩
    | _ => cases caller <;> contradiction
  | sendRunning | sendCrashed | stopTestAgain | killRespond =>
    simp only [step, Option.some.injEq] at h
    subst h
    exact ⟨rfl, fun b hb => hnone hb⟩
  | runTestStartingUp | stopTestStartingUp | stopTestRunning | killTestStartingUp
  | killTestRunning | killTestStopped | exit called =>
    simp only [step, Option.some.injEq] at h
    subst h
    split <;> exact ⟨rfl, fun b hb => hnone hb⟩

/-- Every step keeps a thread in order. -/
theorem step_ordered {t t' : Thread} {outcome : StartOutcome} (h : t.step outcome = some t')
    (hord : t.Ordered) : t'.Ordered := by
  cases hpc : t.pc with
  | initRun o pc =>
    rw [step, hpc, Option.some.injEq] at h
    exact h ▸ stepInitRun_ordered hpc hord
  | run o pc =>
    rw [step, hpc, Option.some.injEq] at h
    exact h ▸ stepRun_ordered hpc hord
  | shutdown caller pc =>
    rw [step, hpc, Option.some.injEq] at h
    exact h ▸ stepShutdown_ordered hpc hord
  | receive =>
    rw [step, hpc] at h
    contradiction
  | closed =>
    rw [step, hpc] at h
    contradiction
  | callInitRun =>
    rw [step, hpc, Option.some.injEq] at h
    subst h
    exact ⟨trivial, fun b hb => hord.flag b (by rw [hpc]; exact hb)⟩
  | callRun o =>
    rw [step, hpc, Option.some.injEq] at h
    subst h
    exact ⟨trivial, fun b hb => hord.flag b (by rw [hpc]; exact hb)⟩
  | runTestRunning =>
    rw [step, hpc, Option.some.injEq] at h
    subst h
    split
    · exact ordered_outside trivial rfl
    next hrun =>
      refine ⟨trivial, fun b hb => ?_⟩
      rw [← Option.some.inj hb]
      show t.app.exited = true
      simpa [Application.isRunning] using hrun
  | sendRunning | sendCrashed | stopTestAgain | killRespond =>
    rw [step, hpc, Option.some.injEq] at h
    subst h
    exact ordered_outside trivial rfl
  | runTestStartingUp | stopTestStartingUp | stopTestRunning | killTestStartingUp
  | killTestRunning | killTestStopped =>
    rw [step, hpc, Option.some.injEq] at h
    subst h
    split <;> exact ordered_outside trivial rfl
  | exit called =>
    rw [step, hpc, Option.some.injEq] at h
    subst h
    split
    · exact ordered_outside trivial rfl
    · exact ordered_outside trivial rfl

end Thread

/-! ## 3. All threads -/

namespace Daemon

/-- At most one thread is inside a start or a teardown. -/
def AtMostOneInside (d : Daemon k) : Prop :=
  ∀ i j, (d.pc i).inside = true → (d.pc j).inside = true → i = j

/-- Every thread is in order, and at most one has passed its guard. -/
structure Exclusive (d : Daemon k) : Prop where
  ordered : ∀ i, (d.thread i).Ordered
  unique : ∀ i j, (d.pc i).exitedAt ≠ none → (d.pc j).exitedAt ≠ none → i = j

end Daemon

/-- No guard is evaluated while another thread is at a point at which it has left `exited` with the
value that lets the guard pass. -/
def GuardsInTime (d : Daemon k) : DaemonLabel k → Prop
  | .step i _ => ∀ b, (d.pc i).guardPasses = some b → ∀ j, j ≠ i → (d.pc j).exitedAt ≠ some b
  | _ => True

namespace Daemon

theorem Exclusive.atMostOneInside {d : Daemon k} (h : d.Exclusive) : d.AtMostOneInside :=
  fun i j hi hj =>
    h.unique i j (ConnectionPc.exitedAt_of_inside hi) (ConnectionPc.exitedAt_of_inside hj)

/-- A thread that moves without touching `exited`, and stays or gets outside, disturbs nobody. -/
theorem Exclusive.put_outside {d : Daemon k} (h : d.Exclusive) (i : Fin k) {t : Thread}
    (happ : t.app.exited = d.app.exited) (hc : t.pc.Consistent) (hout : t.pc.exitedAt = none) :
    (d.put i t).Exclusive := by
  have hpc : ∀ j b, ((d.put i t).pc j).exitedAt = some b → j ≠ i ∧ (d.pc j).exitedAt = some b := by
    intro j b hb
    by_cases hj : j = i
    · subst hj
      rw [put_pc_self, hout] at hb
      contradiction
    · rw [put_pc_of_ne d hj] at hb
      exact ⟨hj, hb⟩
  refine ⟨fun j => ⟨?_, fun b hb => ?_⟩, fun j l hj hl => ?_⟩
  · show ((d.put i t).pc j).Consistent
    by_cases hj : j = i
    · subst hj
      rwa [put_pc_self]
    · rw [put_pc_of_ne d hj]
      exact (h.ordered j).consistent
  · show t.app.exited = b
    rw [happ]
    exact (h.ordered j).flag b (hpc j b hb).2
  · obtain ⟨b, hb⟩ := Option.ne_none_iff_exists'.mp hj
    obtain ⟨b', hb'⟩ := Option.ne_none_iff_exists'.mp hl
    refine h.unique j l ?_ ?_
    · rw [(hpc j b hb).2]
      exact Option.some_ne_none b
    · rw [(hpc l b' hb').2]
      exact Option.some_ne_none b'

/-- A thread may move as it likes, in order, while nobody else has passed a guard. -/
theorem Exclusive.put_alone {d : Daemon k} (h : d.Exclusive) {i : Fin k}
    (halone : ∀ j, j ≠ i → (d.pc j).exitedAt = none) {t : Thread} (ht : t.Ordered) :
    (d.put i t).Exclusive := by
  refine ⟨fun j => ?_, fun j l hj hl => ?_⟩
  · by_cases hj : j = i
    · subst hj
      refine ⟨?_, fun b hb => ht.flag b ?_⟩
      · show ((d.put j t).pc j).Consistent
        rw [put_pc_self]
        exact ht.consistent
      · rw [← put_pc_self d j t]
        exact hb
    · refine ⟨?_, fun b hb => ?_⟩
      · show ((d.put i t).pc j).Consistent
        rw [put_pc_of_ne d hj]
        exact (h.ordered j).consistent
      · have hb' : ((d.put i t).pc j).exitedAt = some b := hb
        rw [put_pc_of_ne d hj, halone j hj] at hb'
        contradiction
  · have heq : ∀ m, ((d.put i t).pc m).exitedAt ≠ none → m = i := by
      intro m hm
      by_contra hmi
      rw [put_pc_of_ne d hmi] at hm
      exact hm (halone m hmi)
    rw [heq j hj, heq l hl]

/-- A step of a thread keeps exclusion if its guard is evaluated in time. -/
theorem Exclusive.step {d : Daemon k} (h : d.Exclusive) {i : Fin k} {outcome : StartOutcome}
    (hok : GuardsInTime d (.step i outcome)) {t : Thread}
    (ht : (d.thread i).step outcome = some t) : (d.put i t).Exclusive := by
  have hordered := Thread.step_ordered ht (h.ordered i)
  by_cases hout : (d.pc i).exitedAt = none
  · obtain ⟨hexited, hguard⟩ := Thread.step_outside ht hout
    cases hin : t.pc.exitedAt with
    | none => exact h.put_outside i hexited hordered.consistent hin
    | some b =>
      -- the guard has let this thread pass, so another one inside would have left the same value
      refine h.put_alone (fun j hj => ?_) hordered
      cases hb' : (d.pc j).exitedAt with
      | none => rfl
      | some b' =>
        have hflag : d.app.exited = b' := (h.ordered j).flag b' hb'
        have hflag' : t.app.exited = b := hordered.flag b hin
        rw [hexited] at hflag'
        have hbb : b' = b := hflag.symm.trans hflag'
        exact absurd (hbb ▸ hb') (hok b (hguard b hin) j hj)
  · refine h.put_alone (fun j hj => ?_) hordered
    by_contra hne
    exact hj (h.unique j i hne hout)

-- Receiving a line and closing the connection happen outside.
theorem Exclusive.next {d d' : Daemon k} (h : d.Exclusive) {a : DaemonLabel k}
    (hok : GuardsInTime d a) (hn : d.next a = some d') : d'.Exclusive := by
  obtain ⟨-, ⟨i, r, rfl, -, rfl⟩ | ⟨i, outcome, t, rfl, ht, rfl⟩ | ⟨i, rfl, -, rfl⟩⟩ :=
    next_cases hn
  · cases r <;> exact h.put_outside i rfl trivial rfl
  · exact h.step hok ht
  · exact h.put_outside i rfl trivial rfl

-- At first all threads wait for a line.
theorem exclusive_of_reach {d : Daemon k} (h : (daemonMachine k).ReachWhile GuardsInTime d) :
    d.Exclusive := by
  refine h.invariant ?_ fun d a d' hd hok hn => hd.next hok hn
  rintro _ rfl
  exact ⟨fun i => Thread.ordered_outside trivial rfl, fun i j hi => absurd rfl hi⟩

/-- A thread about to enter `initRun` can do so at once. -/
theorem leads_inside {d : Daemon k} (halive : d.alive = true) {i : Fin k}
    (hi : (d.pc i).inside = true ∨ d.pc i = .callInitRun) (outcome : StartOutcome) :
    ∃ d', (daemonMachine k).Leads (fun _ _ => True) d d' ∧ d'.alive = true ∧
      (d'.pc i).inside = true ∧ ∀ j, j ≠ i → d'.pc j = d.pc j := by
  rcases hi with hi | hi
  · exact ⟨d, .refl, halive, hi, fun j _ => rfl⟩
  · have hstep : d.next (.step i outcome) = some (d.put i (((d.thread i).send
        (ConfigurationWorker.getDriverStateUpdate "startup")).goto
          (.initRun outcome .clearCrash))) := by
      unfold Daemon.next
      rw [if_pos halive]
      simp only [Thread.step, thread, hi, Option.map_some]
    refine ⟨_, .single ⟨.step i outcome, trivial, hstep⟩, rfl, ?_,
      fun j hj => put_pc_of_ne d hj _⟩
    rw [put_pc_self]
    rfl

/-- A guard evaluated at the wrong moment lets a second thread in. -/
theorem Exclusive.violated {d d' : Daemon k} (h : d.Exclusive) {a : DaemonLabel k}
    (hn : d.next a = some d') (hok : ¬ GuardsInTime d a) (outcome : StartOutcome) :
    ∃ e, (daemonMachine k).Leads (fun _ _ => True) d' e ∧ ¬ e.AtMostOneInside := by
  cases a with
  | request i r => exact absurd trivial hok
  | disconnect i => exact absurd trivial hok
  | step i o =>
    obtain ⟨b, hb, j, hji, hj⟩ : ∃ b, (d.pc i).guardPasses = some b ∧
        ∃ j, j ≠ i ∧ (d.pc j).exitedAt = some b := by
      by_contra hnone
      exact hok fun b hb j hji hj => hnone ⟨b, hb, j, hji, hj⟩
    have hflag : d.app.exited = b := (h.ordered j).flag b hj
    have halive : d.alive = true := by
      by_contra hdead
      rw [Daemon.next, if_neg hdead] at hn
      contradiction
    rw [Daemon.next, if_pos halive] at hn
    obtain ⟨t, ht, rfl⟩ := Option.map_eq_some_iff.mp hn
    -- the guard passes: this thread is inside or about to enter `initRun`
    have hpass : t.alive = true ∧ (t.pc.inside = true ∨ t.pc = .callInitRun) := by
      cases hpc : d.pc i with
      | runTestRunning =>
        rw [hpc] at hb
        rw [← Option.some.inj hb] at hflag
        simp only [Thread.step, thread, hpc, Application.isRunning, hflag, Bool.not_true,
          Bool.false_eq_true, if_false, Option.some.injEq] at ht
        subst ht
        exact ⟨rfl, .inr rfl⟩
      | shutdown caller pc =>
        rw [hpc] at hb
        have hb' : b = false ∧ pc = .test := by
          cases caller <;> cases pc <;>
            first
            | contradiction
            | exact ⟨(Option.some.inj hb).symm, rfl⟩
        obtain ⟨rfl, rfl⟩ := hb'
        simp only [Thread.step, thread, hpc, Thread.stepShutdown, hflag, Bool.false_eq_true,
          if_false, Option.some.injEq] at ht
        subst ht
        refine ⟨rfl, .inl ?_⟩
        cases caller <;> rfl
      | _ => rw [hpc] at hb; contradiction
    obtain ⟨d₁, hl₁, halive₁, hin₁, hother₁⟩ := leads_inside (d := d.put i t) hpass.1 (i := i)
      (by rw [put_pc_self]; exact hpass.2) outcome
    have hj₁ : (d₁.pc j).inside = true ∨ d₁.pc j = .callInitRun := by
      rw [hother₁ j hji, put_pc_of_ne d hji]
      exact (ConnectionPc.inside_or_callInitRun hj).imp_right And.left
    obtain ⟨d₂, hl₂, -, hin₂, hother₂⟩ := leads_inside halive₁ hj₁ outcome
    refine ⟨d₂, hl₁.trans hl₂, fun hone => hji (hone j i hin₂ ?_)⟩
    rw [hother₂ i (Ne.symm hji)]
    exact hin₁

end Daemon

/-- **Starts and stops exclude each other as long as every guard is evaluated in time**, and the
first guard that is not can let a second thread in. -/
theorem startStop_exclusive {d : Daemon k} (h : (daemonMachine k).ReachWhile GuardsInTime d) :
    d.AtMostOneInside ∧ ∀ a d', d.next a = some d' → ¬ GuardsInTime d a →
      ∃ e, (daemonMachine k).Leads (fun _ _ => True) d' e ∧ ¬ e.AtMostOneInside :=
  have hexclusive := Daemon.exclusive_of_reach h
  ⟨hexclusive.atMostOneInside, fun _ _ hn hok => hexclusive.violated hn hok goodStart⟩

/-- The clients send nothing but `driver.state` Puts. -/
def DriverStateOnly : Daemon k → DaemonLabel k → Prop
  | _, .request _ r => r = .run ∨ r = .stop
  | _, _ => True

instance (d : Daemon k) : ∀ a, Decidable (DriverStateOnly d a)
  | .request _ r => inferInstanceAs (Decidable (r = .run ∨ r = .stop))
  | .step .. | .disconnect .. => inferInstanceAs (Decidable True)

instance (d : Daemon k) : ∀ a, Decidable (GuardsInTime d a)
  | .step i _ => inferInstanceAs (Decidable (∀ b, (d.pc i).guardPasses = some b →
      ∀ j, j ≠ i → (d.pc j).exitedAt ≠ some b))
  | .request .. | .disconnect .. => inferInstanceAs (Decidable True)

/-- Two clients ask for a start, and both threads pass the guards before either sets a flag. -/
def twoStarts (i j : Fin k) : List (DaemonLabel k) :=
  [.request i .run, .request j .run, .step i goodStart, .step i goodStart, .step j goodStart,
    .step j goodStart, .step i goodStart, .step j goodStart]

theorem twoStarts_inside :
    ¬ ∀ (k : Nat) (d : Daemon k), (daemonMachine k).ReachWhile DriverStateOnly d →
      d.AtMostOneInside := by
  intro hclaim
  have hrun : (daemonMachine 2).runWhile DriverStateOnly {} (twoStarts 0 1) =
      some (((daemonMachine 2).runWhile DriverStateOnly {} (twoStarts 0 1)).get (by decide)) :=
    (Option.some_get _).symm
  have hone := hclaim 2 _ ⟨{}, rfl, Machine.leads_of_runWhile hrun⟩ 0 1 (by decide) (by decide)
  exact absurd hone (by decide)

/-- A start that is through, and a stop after it that has passed both its guards. -/
def startThenStop (i j : Fin k) : List (DaemonLabel k) :=
  .request i .run :: List.replicate 22 (.step i goodStart) ++
    .request j .stop :: List.replicate 3 (.step j goodStart)

theorem startStop_exclusive_stopping :
    let d := ((daemonMachine 2).runWhile GuardsInTime {} (startThenStop 0 1)).get (by decide)
    d.AtMostOneInside ∧ ∀ a d', d.next a = some d' → ¬ GuardsInTime d a →
      ∃ e, (daemonMachine 2).Leads (fun _ _ => True) d' e ∧ ¬ e.AtMostOneInside :=
  startStop_exclusive ⟨{}, rfl, Machine.leads_of_runWhile (Option.some_get _).symm⟩

end NetShare
