import NetShare.StartStop

/-!
# Teardowns of a driver that is still starting

One connection handles a start and any others handle kills.  A kill announces "worker.startup" while
a start goes on but does not wait for its end; what protects the start is only that nobody happens
to test `exited` in the meantime.
-/

namespace NetShare

open Reasoning

variable {k : Nat}

/-! ## 1. What is claimed and when it holds -/

/-- The driver has what `run` provides. -/
def Application.HasSession (app : Application) : Prop :=
  app.conf.target?.isSome = true ∧ app.Workers.target?.isSome = true

/-- The thread that handles the start has made the last assignment of `run`, or is through. -/
def ConnectionPc.startDone : ConnectionPc → Bool
  | .run _ .ret | .sendRunning | .receive | .closed => true
  | _ => false

/-- Before the test of `exited` in `shutdown`. -/
def ConnectionPc.testsExited : ConnectionPc → Bool
  | .shutdown _ .test => true
  | _ => false

/-- Between the assignments of the two flags at the head of `initRun`. -/
def ConnectionPc.betweenFlags : ConnectionPc → Bool
  | .initRun _ .setStartingUp => true
  | _ => false

/-- The daemon in which `starter` has just received a start, and the other connections nothing. -/
def Daemon.starting (starter : Fin k) : Daemon k where
  pc := Function.update (fun _ => .receive) starter Request.run.entry

def teardownMachine (starter : Fin k) : Machine (Daemon k) (DaemonLabel k) where
  init d := d = Daemon.starting starter
  next := Daemon.next

/-- The other connections ask for nothing but kills. -/
def KillsOnly (starter : Fin k) : Daemon k → DaemonLabel k → Prop
  | _, .request i r => i ≠ starter ∧ r = .kill
  | _, _ => True

/-- A `shutdown` that gets past its test finds a driver whose start is through. -/
def EntersStarted (starter : Fin k) (d : Daemon k) : DaemonLabel k → Prop
  | .step i _ => (d.pc i).testsExited = true → d.app.exited = false →
      d.app.startingUp = false ∧ d.app.HasSession ∧ (d.pc starter).startDone = true
  | _ => True

/-- No `shutdown` gets past its test while `startingUp` is set, or between the assignments of the
two flags at the head of `initRun`. -/
def ShutdownInTime (starter : Fin k) (d : Daemon k) : DaemonLabel k → Prop
  | .step i _ => (d.pc i).testsExited = true → d.app.exited = false →
      d.app.startingUp = false ∧ (d.pc starter).betweenFlags = false
  | _ => True

/-! ## 2. The thread that handles the start -/

/-- What the application is like when the start has come this far. -/
def StartPhase (app : Application) : ConnectionPc → Prop
  | .runTestStartingUp | .runTestRunning | .callInitRun
  | .initRun _ .clearCrash | .initRun _ .setRunning => app.exited = true ∧ app.conf = .null
  | .initRun _ .setStartingUp => app.conf = .null
  | .initRun _ .clearStartingUp => app.exited = true
  | .initRun _ (.ret false) | .sendCrashed => app.startingUp = true ∨ app.exited = true
  | .initRun _ _ | .callRun _ | .run _ .setRunning => app.startingUp = true
  | .run _ .createWorkers => app.startingUp = true ∧ app.conf.target?.isSome = true
  | .run _ .startThreads | .run _ .setCtrlHandler | .run _ .registerExit
  | .run _ .clearStartingUp | .shutdown (.run _) .test => app.startingUp = true ∧ app.HasSession
  | .run _ .ret | .sendRunning | .receive | .closed =>
    app.startingUp = false → app.exited = false → app.HasSession
  | _ => False

theorem betweenFlags_of_startDone {pc : ConnectionPc} (hdone : pc.startDone = true) :
    pc.betweenFlags = false := by
  cases pc with
  | initRun outcome pc => exact Bool.noConfusion hdone
  | _ => rfl

-- When the start is through, only its result counts.
theorem startPhase_done {app : Application} {pc : ConnectionPc} (hdone : pc.startDone = true) :
    StartPhase app pc ↔ (app.startingUp = false → app.exited = false → app.HasSession) := by
  cases pc with
  | run outcome pc => cases pc <;> first | contradiction | exact Iff.rfl
  | receive | closed | sendRunning => exact Iff.rfl
  | _ => contradiction

/-- A driver that counts as running and not as starting, and is not just about to, is started. -/
theorem StartPhase.started {app : Application} {pc : ConnectionPc} (h : StartPhase app pc)
    (hup : app.startingUp = false) (hex : app.exited = false)
    (hgap : pc.betweenFlags = false) :
    app.HasSession ∧ pc.startDone = true := by
  have hup' : app.startingUp = true → app.HasSession ∧ pc.startDone = true :=
    fun h' => absurd (h'.symm.trans hup) (by decide)
  have hex' : app.exited = true → app.HasSession ∧ pc.startDone = true :=
    fun h' => absurd (h'.symm.trans hex) (by decide)
  cases pc with
  | receive | closed | sendRunning => exact ⟨h hup hex, rfl⟩
  | runTestStartingUp | runTestRunning | callInitRun => exact hex' h.1
  | sendCrashed => exact h.elim hup' hex'
  | callRun outcome => exact hup' h
  | initRun outcome pc =>
    cases pc with
    | clearCrash | setRunning => exact hex' h.1
    | setStartingUp => exact Bool.noConfusion hgap
    | clearStartingUp => exact hex' h
    | ret successful =>
      cases successful with
      | false => exact h.elim hup' hex'
      | true => exact hup' h
    | _ => exact hup' h
  | run outcome pc =>
    cases pc with
    | setRunning => exact hup' h
    | ret => exact ⟨h hup hex, rfl⟩
    | _ => exact hup' h.1
  | shutdown caller pc => cases caller <;> cases pc <;> first | exact hup' h.1 | exact False.elim h
  | _ => exact False.elim h

/-- A statement that is a fault leaves the phase, one that is not leads to the next. -/
theorem StartPhase.update {t : Thread} (h : StartPhase t.app t.pc) {app : Option Application}
    {pc : ConnectionPc} (hnext : ∀ app', app = some app' → StartPhase app' pc) :
    StartPhase (t.update app pc).app (t.update app pc).pc := by
  cases app with
  | none => exact h
  | some app' => exact hnext app' rfl

-- From its assignment to the end `startingUp` is set, but for the exits that undo it.
theorem startPhase_stepInitRun {t : Thread} {outcome : StartOutcome} {pc : InitRunPc}
    (hpc : t.pc = .initRun outcome pc) (h : StartPhase t.app t.pc) :
    StartPhase (t.stepInitRun outcome pc).app (t.stepInitRun outcome pc).pc := by
  have hp := h
  rw [hpc] at hp
  cases pc with
  | clearCrash => exact hp
  | setRunning => exact hp.2
  | setStartingUp => rfl
  | readConfig =>
    unfold Thread.stepInitRun
    dsimp only
    split
    · exact .inl hp
    · apply h.update
      intro app' happ
      obtain ⟨-, happ⟩ := Option.ite_none_left_eq_some.mp happ
      rw [← Option.some.inj happ]
      exact hp
  | checkAdapters =>
    unfold Thread.stepInitRun
    dsimp only
    split
    · apply h.update
      intro app' happ
      obtain ⟨app, hconf, rfl⟩ := Option.map_eq_some_iff.mp happ
      exact .inl ((Application.withConf_flags hconf).startingUp.trans hp)
    · exact hp
  | initializeWintun =>
    unfold Thread.stepInitRun
    dsimp only
    split <;> exact hp
  | generateUDPConfigs =>
    apply h.update
    intro app' happ
    obtain ⟨app, hconf, rfl⟩ := Option.map_eq_some_iff.mp happ
    exact (Application.withConf_flags hconf).startingUp.trans hp
  | getAdapterHandle =>
    apply h.update
    intro app' happ
    split <;> exact (Application.withConf_flags happ).startingUp.trans hp
  | startSession =>
    apply h.update
    intro app' happ
    split <;> exact (Application.withConf_flags happ).startingUp.trans hp
  | setExited => rfl
  | clearStartingUp => exact .inr hp
  | ret successful => cases successful <;> exact hp

-- `run` fills in the session before it clears `startingUp`.
theorem startPhase_stepRun {t : Thread} {outcome : StartOutcome} {pc : RunPc}
    (hpc : t.pc = .run outcome pc) (h : StartPhase t.app t.pc) :
    StartPhase (t.stepRun outcome pc).app (t.stepRun outcome pc).pc := by
  have hp := h
  rw [hpc] at hp
  cases pc with
  | setRunning =>
    apply h.update
    intro app' happ
    obtain ⟨conf, -, rfl⟩ := Option.map_eq_some_iff.mp happ
    exact ⟨hp, rfl⟩
  | createWorkers =>
    apply h.update
    intro app' happ
    obtain ⟨size, -, rfl⟩ := Option.map_eq_some_iff.mp happ
    exact ⟨hp.1, hp.2, rfl⟩
  | startThreads =>
    unfold Thread.stepRun
    dsimp only
    split
    · apply h.update
      intro app' happ
      split at happ
      · rw [← Option.some.inj happ]
        exact hp
      · contradiction
    · exact h
  | setCtrlHandler =>
    unfold Thread.stepRun
    dsimp only
    split <;> exact hp
  | registerExit => exact hp
  | clearStartingUp => exact fun _ _ => hp.2
  | ret => exact hp

/-- A step of the starting thread leads to the next phase, if its own `shutdown` stays out. -/
theorem startPhase_step {t t' : Thread} {outcome : StartOutcome} (ht : t.step outcome = some t')
    (h : StartPhase t.app t.pc)
    (hok : ∀ o, t.pc = .shutdown (.run o) .test → t.app.exited = true) :
    StartPhase t'.app t'.pc := by
  have hp := h
  cases hpc : t.pc with
  | initRun o pc =>
    rw [Thread.step, hpc, Option.some.injEq] at ht
    exact ht ▸ startPhase_stepInitRun hpc h
  | run o pc =>
    rw [Thread.step, hpc, Option.some.injEq] at ht
    exact ht ▸ startPhase_stepRun hpc h
  | shutdown caller pc =>
    rw [hpc] at hp
    cases caller with
    | run o =>
      cases pc with
      | test =>
        rw [Thread.step, hpc, Option.some.injEq] at ht
        subst ht
        simp only [Thread.stepShutdown, hok o hpc, if_true]
        exact hp
      | _ => exact False.elim hp
    | _ => exact False.elim hp
  | receive => rw [Thread.step, hpc] at ht; contradiction
  | closed => rw [Thread.step, hpc] at ht; contradiction
  | callInitRun | callRun o | sendRunning =>
    rw [hpc] at hp
    rw [Thread.step, hpc, Option.some.injEq] at ht
    subst ht
    exact hp
  | sendCrashed =>
    rw [hpc] at hp
    rw [Thread.step, hpc, Option.some.injEq] at ht
    subst ht
    intro hup hex
    exact absurd (hp.elim (fun h' => h'.symm.trans hup) fun h' => h'.symm.trans hex) (by decide)
  | runTestStartingUp =>
    rw [hpc] at hp
    rw [Thread.step, hpc, Option.some.injEq] at ht
    subst ht
    split
    · exact fun _ hex => absurd (hp.1.symm.trans hex) (by decide)
    · exact hp
  | runTestRunning =>
    rw [hpc] at hp
    rw [Thread.step, hpc, Option.some.injEq] at ht
    subst ht
    split
    · exact fun _ hex => absurd (hp.1.symm.trans hex) (by decide)
    · exact hp
  | _ => rw [hpc] at hp; exact False.elim hp

/-- A thread that is through changes nothing any more. -/
theorem step_startDone {t t' : Thread} {outcome : StartOutcome} (ht : t.step outcome = some t')
    (hdone : t.pc.startDone = true) : t'.app = t.app ∧ t'.pc.startDone = true := by
  cases hpc : t.pc with
  | run o pc =>
    rw [hpc] at hdone
    rw [Thread.step, hpc, Option.some.injEq] at ht
    subst ht
    cases pc <;> first | contradiction | exact ⟨rfl, rfl⟩
  | sendRunning =>
    rw [Thread.step, hpc, Option.some.injEq] at ht
    subst ht
    exact ⟨rfl, rfl⟩
  | receive => rw [Thread.step, hpc] at ht; contradiction
  | closed => rw [Thread.step, hpc] at ht; contradiction
  | _ => rw [hpc] at hdone; contradiction

/-! ## 3. The threads that handle kills -/

namespace ConnectionPc

/-- Where a thread that gets nothing but kills can be. -/
def killing : ConnectionPc → Bool
  | .receive | .closed | .killTestStartingUp | .killTestRunning | .killTestStopped | .killRespond
  | .exit _ | .shutdown .kill _ | .shutdown (.exit _) _ => true
  | _ => false

def inBody : ConnectionPc → Bool
  | .shutdown _ .test => false
  | .shutdown _ _ => true
  | _ => false

/-- In the body, after its assignment of `exited`. -/
def hasExited : ConnectionPc → Bool
  | .shutdown _ .test | .shutdown _ .readStats | .shutdown _ .setExited => false
  | .shutdown _ _ => true
  | _ => false

end ConnectionPc

-- A kill or the end of the process goes on outside the body.
theorem killing_resume {caller : ShutdownCaller} {pc : TeardownPc}
    (h : ConnectionPc.killing (.shutdown caller pc) = true) :
    caller.resume.killing = true ∧ caller.resume.inBody = false ∧
      caller.resume.hasExited = false := by
  cases caller <;> first | contradiction | exact ⟨rfl, rfl, rfl⟩

theorem killing_shutdown {caller : ShutdownCaller} {pc : TeardownPc} (pc' : TeardownPc)
    (h : ConnectionPc.killing (.shutdown caller pc) = true) :
    ConnectionPc.killing (.shutdown caller pc') = true := by
  cases caller <;> first | contradiction | rfl

/-- Outside the body a kill changes nothing, and it gets in only past the test. -/
theorem killing_step_outside {t t' : Thread} {outcome : StartOutcome}
    (ht : t.step outcome = some t') (hkill : t.pc.killing = true) (hout : t.pc.inBody = false) :
    t'.app = t.app ∧ t'.pc.killing = true ∧ t'.pc.hasExited = false ∧
      (t'.pc.inBody = true → t.pc.testsExited = true ∧ t.app.exited = false) := by
  cases hpc : t.pc with
  | receive => rw [Thread.step, hpc] at ht; contradiction
  | closed => rw [Thread.step, hpc] at ht; contradiction
  | killTestStartingUp | killTestRunning | killTestStopped =>
    rw [Thread.step, hpc, Option.some.injEq] at ht
    subst ht
    split <;> exact ⟨rfl, rfl, rfl, fun hin => Bool.noConfusion hin⟩
  | killRespond =>
    rw [Thread.step, hpc, Option.some.injEq] at ht
    subst ht
    exact ⟨rfl, rfl, rfl, fun hin => Bool.noConfusion hin⟩
  | exit called =>
    rw [Thread.step, hpc, Option.some.injEq] at ht
    subst ht
    split <;> exact ⟨rfl, rfl, rfl, fun hin => Bool.noConfusion hin⟩
  | shutdown caller pc =>
    rw [hpc] at hkill hout
    cases pc with
    | test =>
      rw [Thread.step, hpc, Option.some.injEq] at ht
      subst ht
      simp only [Thread.stepShutdown]
      split
      · obtain ⟨hk, hb, he⟩ := killing_resume hkill
        exact ⟨rfl, hk, he, fun hin => absurd (hb.symm.trans hin) (by decide)⟩
      next hex =>
        exact ⟨rfl, killing_shutdown .readStats hkill, rfl,
          fun _ => ⟨rfl, Bool.eq_false_iff.mpr hex⟩⟩
    | _ => contradiction
  | _ => rw [hpc] at hkill; contradiction

/-- What the body of `shutdown` keeps: `exited` stays set, and until it is set the session stays. -/
theorem killing_step_inBody {t t' : Thread} {outcome : StartOutcome}
    (ht : t.step outcome = some t') (hkill : t.pc.killing = true) (hin : t.pc.inBody = true)
    (hexited : t.pc.hasExited = true → t.app.exited = true) :
    t'.pc.killing = true ∧ (t'.pc.hasExited = true → t'.app.exited = true) ∧
      (t.app.exited = true → t'.app.exited = true) ∧ t'.app.startingUp = t.app.startingUp ∧
      (t'.app.exited = false → t.app.HasSession → t'.app.HasSession) := by
  cases hpc : t.pc with
  | shutdown caller pc =>
    rw [hpc] at hkill hin hexited
    rw [Thread.step, hpc, Option.some.injEq] at ht
    subst ht
    -- a statement after the assignment of `exited` keeps it set, so nothing is asked of the session
    have hupdate : ∀ {app : Option Application} {pc' : TeardownPc}, t.app.exited = true →
        (∀ app', app = some app' → app'.exited = true ∧ app'.startingUp = t.app.startingUp) →
        let u := t.update app (.shutdown caller pc')
        u.pc.killing = true ∧ (u.pc.hasExited = true → u.app.exited = true) ∧
          (t.app.exited = true → u.app.exited = true) ∧ u.app.startingUp = t.app.startingUp ∧
          (u.app.exited = false → t.app.HasSession → u.app.HasSession) := by
      intro app pc' hex happ
      cases app with
      | none =>
        refine ⟨?_, fun _ => hex, id, rfl, fun _ => id⟩
        show t.pc.killing = true
        rw [hpc]
        exact hkill
      | some app' =>
        obtain ⟨hex', hup'⟩ := happ app' rfl
        exact ⟨killing_shutdown pc' hkill, fun _ => hex', fun _ => hex', hup',
          fun hfalse => absurd (hex'.symm.trans hfalse) (by decide)⟩
    cases pc with
    | test => contradiction
    | readStats =>
      simp only [Thread.stepShutdown]
      cases hconf : t.app.withConf some with
      | none =>
        refine ⟨?_, fun he => ?_, id, rfl, fun _ => id⟩
        · show t.pc.killing = true
          rw [hpc]
          exact hkill
        · have he' : t.pc.hasExited = true := he
          rw [hpc] at he'
          contradiction
      | some app' =>
        obtain ⟨conf, -, rfl⟩ := Option.map_eq_some_iff.mp hconf
        exact ⟨killing_shutdown .setExited hkill, fun he => Bool.noConfusion he, id, rfl,
          fun _ hs => ⟨rfl, hs.2⟩⟩
    | setExited =>
      exact ⟨killing_shutdown .stopWorkers hkill, fun _ => rfl, fun _ => rfl, rfl,
        fun hfalse => Bool.noConfusion hfalse⟩
    | stopWorkers =>
      apply hupdate (hexited rfl)
      intro app' happ
      have hflags := Application.stopWorkers_flags happ
      exact ⟨hflags.exited.trans (hexited rfl), hflags.startingUp⟩
    | clearWorkers =>
      apply hupdate (hexited rfl)
      intro app' happ
      have hflags := Application.clearWorkers_flags happ
      exact ⟨hflags.exited.trans (hexited rfl), hflags.startingUp⟩
    | endSession =>
      apply hupdate (hexited rfl)
      intro app' happ
      have hflags := Application.endSession_flags happ
      exact ⟨hflags.exited.trans (hexited rfl), hflags.startingUp⟩
    | clearConf =>
      apply hupdate (hexited rfl)
      intro app' happ
      have hflags := Application.clearConf_flags happ
      exact ⟨hflags.exited.trans (hexited rfl), hflags.startingUp⟩
    | ret =>
      obtain ⟨hk, -, he⟩ := killing_resume hkill
      exact ⟨hk, fun he' => absurd (he.symm.trans he') (by decide), id, rfl, fun _ => id⟩
  | _ => rw [hpc] at hin; contradiction

/-! ## 4. All threads -/

/-- The start is in its phase, the other threads handle kills, and one of them is in the body of
`shutdown` only when the start is through. -/
structure Daemon.Guarded (starter : Fin k) (d : Daemon k) : Prop where
  phase : StartPhase d.app (d.pc starter)
  killing : ∀ i, i ≠ starter → (d.pc i).killing = true
  done : ∀ i, i ≠ starter → (d.pc i).inBody = true → (d.pc starter).startDone = true
  exited : ∀ i, i ≠ starter → (d.pc i).hasExited = true → d.app.exited = true

namespace Daemon

variable {starter : Fin k}

/-- A kill in the body of `shutdown` or beyond an assignment in it is in the body. -/
theorem inBody_of_hasExited {pc : ConnectionPc} (h : pc.hasExited = true) : pc.inBody = true := by
  cases pc with
  | shutdown caller pc => cases pc <;> first | contradiction | rfl
  | _ => contradiction

-- The starting thread moves; a kill in the body would mean that it is through.
theorem Guarded.step_starter {d : Daemon k} (h : d.Guarded starter) {outcome : StartOutcome}
    {t : Thread} (ht : (d.thread starter).step outcome = some t)
    (hok : ShutdownInTime starter d (.step starter outcome)) :
    (d.put starter t).Guarded starter := by
  have hphase : StartPhase t.app t.pc := by
    apply startPhase_step ht h.phase
    intro o hpc
    cases hex : d.app.exited with
    | true => exact hex
    | false =>
      have hstarter : d.pc starter = .shutdown (.run o) .test := hpc
      have hup := (hok (by rw [hstarter]; rfl) hex).1
      have hp := h.phase
      rw [hstarter] at hp
      exact absurd (hp.1.symm.trans hup) (by decide)
  have hpcs : ∀ i, i ≠ starter → (d.put starter t).pc i = d.pc i := fun i hi => put_pc_of_ne d hi t
  -- if a kill is in the body, this thread is through and changes nothing
  have hbusy : ∀ i, i ≠ starter → (d.pc i).inBody = true →
      t.app = d.app ∧ t.pc.startDone = true :=
    fun i hi hin => step_startDone ht (h.done i hi hin)
  refine ⟨?_, fun i hi => ?_, fun i hi hin => ?_, fun i hi he => ?_⟩
  · rw [put_pc_self]
    exact hphase
  · rw [hpcs i hi]
    exact h.killing i hi
  · rw [hpcs i hi] at hin
    rw [put_pc_self]
    exact (hbusy i hi hin).2
  · rw [hpcs i hi] at he
    show t.app.exited = true
    rw [(hbusy i hi (inBody_of_hasExited he)).1]
    exact h.exited i hi he

-- A kill moves; the condition is needed where it gets past the test.
theorem Guarded.step_other {d : Daemon k} (h : d.Guarded starter) {i : Fin k} (hi : i ≠ starter)
    {outcome : StartOutcome} {t : Thread} (ht : (d.thread i).step outcome = some t)
    (hok : ShutdownInTime starter d (.step i outcome)) : (d.put i t).Guarded starter := by
  have hstarter : (d.put i t).pc starter = d.pc starter := put_pc_of_ne d (Ne.symm hi) t
  cases hin : (d.pc i).inBody with
  | false =>
    obtain ⟨happ, hkill, hexited, henter⟩ := killing_step_outside ht (h.killing i hi) hin
    refine ⟨?_, fun j hj => ?_, fun j hj hb => ?_, fun j hj he => ?_⟩
    · rw [hstarter]
      show StartPhase t.app (d.pc starter)
      rw [happ]
      exact h.phase
    · by_cases hji : j = i
      · subst hji
        rw [put_pc_self]
        exact hkill
      · rw [put_pc_of_ne d hji]
        exact h.killing j hj
    · rw [hstarter]
      by_cases hji : j = i
      · subst hji
        rw [put_pc_self] at hb
        obtain ⟨htest, hex⟩ := henter hb
        obtain ⟨hup, hgap⟩ := hok htest hex
        exact (h.phase.started hup hex hgap).2
      · rw [put_pc_of_ne d hji] at hb
        exact h.done j hj hb
    · show t.app.exited = true
      rw [happ]
      by_cases hji : j = i
      · subst hji
        rw [put_pc_self, hexited] at he
        contradiction
      · rw [put_pc_of_ne d hji] at he
        exact h.exited j hj he
  | true =>
    have hdone := h.done i hi hin
    obtain ⟨hkill, hexited, hkeeps, hup, hsession⟩ :=
      killing_step_inBody ht (h.killing i hi) hin (h.exited i hi)
    refine ⟨?_, fun j hj => ?_, fun j hj hb => ?_, fun j hj he => ?_⟩
    · rw [hstarter, startPhase_done hdone]
      intro hup' hex'
      have hex : d.app.exited = false := by
        cases hex : d.app.exited with
        | false => rfl
        | true => exact absurd ((hkeeps hex).symm.trans hex') (by decide)
      exact hsession hex' ((startPhase_done hdone).mp h.phase (hup.symm.trans hup') hex)
    · by_cases hji : j = i
      · subst hji
        rw [put_pc_self]
        exact hkill
      · rw [put_pc_of_ne d hji]
        exact h.killing j hj
    · rw [hstarter]
      exact hdone
    · show t.app.exited = true
      by_cases hji : j = i
      · subst hji
        rw [put_pc_self] at he
        exact hexited he
      · rw [put_pc_of_ne d hji] at he
        exact hkeeps (h.exited j hj he)

/-- A thread that receives a kill, or closes its connection, keeps out of the way. -/
theorem Guarded.put_waiting {d : Daemon k} (h : d.Guarded starter) {i : Fin k} {pc : ConnectionPc}
    (hpc : d.pc i = .receive) (hkill : pc.killing = true) (hout : pc.inBody = false)
    (hstart : i = starter → pc.startDone = true) :
    (d.put i ((d.thread i).goto pc)).Guarded starter := by
  have hself : (d.put i ((d.thread i).goto pc)).pc i = pc := put_pc_self d i _
  have hother : ∀ j, j ≠ i → (d.put i ((d.thread i).goto pc)).pc j = d.pc j :=
    fun j hj => put_pc_of_ne d hj _
  have hin : ∀ j, ((d.put i ((d.thread i).goto pc)).pc j).inBody = true →
      (d.put i ((d.thread i).goto pc)).pc j = d.pc j := by
    intro j hb
    apply hother j
    intro hj
    rw [hj, hself, hout] at hb
    contradiction
  refine ⟨?_, fun j hj => ?_, fun j hj hb => ?_, fun j hj he => ?_⟩
  · show StartPhase d.app _
    by_cases hi : starter = i
    · subst hi
      have hphase := h.phase
      rw [hpc] at hphase
      rw [hself, startPhase_done (hstart rfl)]
      exact hphase
    · rw [hother starter hi]
      exact h.phase
  · by_cases hji : j = i
    · subst hji
      rwa [hself]
    · rw [hother j hji]
      exact h.killing j hj
  · by_cases hi : starter = i
    · subst hi
      rw [hself]
      exact hstart rfl
    · rw [hother starter hi]
      exact h.done j hj (hin j hb ▸ hb)
  · exact h.exited j hj (hin j (inBody_of_hasExited he) ▸ he)

-- The start is received once, before the run, so only kills are received in it.
theorem Guarded.next {d d' : Daemon k} (h : d.Guarded starter) {a : DaemonLabel k}
    (hkills : KillsOnly starter d a) (hok : ShutdownInTime starter d a)
    (hn : d.next a = some d') : d'.Guarded starter := by
  obtain ⟨-, ⟨i, r, rfl, hpc, rfl⟩ | ⟨i, outcome, t, rfl, ht, rfl⟩ | ⟨i, rfl, hpc, rfl⟩⟩ :=
    next_cases hn
  · obtain ⟨hi, rfl⟩ := hkills
    exact h.put_waiting hpc rfl rfl fun hi' => absurd hi' hi
  · by_cases hi : i = starter
    · subst hi
      exact h.step_starter ht hok
    · exact h.step_other hi ht hok
  · exact h.put_waiting hpc rfl rfl fun _ => rfl

-- At first only the start has been received.
theorem guarded_of_reach {d : Daemon k} (h : (teardownMachine starter).ReachWhile
    (fun d a => KillsOnly starter d a ∧ ShutdownInTime starter d a) d) : d.Guarded starter := by
  refine h.invariant ?_ fun d a d' hd hok hn => hd.next hok.1 hok.2 hn
  rintro _ rfl
  have hself : (starting starter).pc starter = .runTestStartingUp := by
    simp only [starting, Function.update_self, Request.entry]
  have hother : ∀ i, i ≠ starter → (starting starter).pc i = .receive := by
    intro i hi
    simp only [starting, Function.update_of_ne hi]
  refine ⟨?_, fun i hi => ?_, fun i hi hb => ?_, fun i hi he => ?_⟩
  · rw [hself]
    exact ⟨rfl, rfl⟩
  · rw [hother i hi]
    rfl
  · rw [hother i hi] at hb
    contradiction
  · rw [hother i hi] at he
    contradiction

end Daemon

/-- **Teardowns find a started driver exactly as long as they come in time.** -/
theorem teardown_started (starter : Fin k) {d : Daemon k}
    (h : (teardownMachine starter).ReachWhile
      (fun d a => KillsOnly starter d a ∧ ShutdownInTime starter d a) d) (a : DaemonLabel k) :
    EntersStarted starter d a ↔ ShutdownInTime starter d a := by
  have hguarded := Daemon.guarded_of_reach h
  cases a with
  | request i r => exact Iff.rfl
  | disconnect i => exact Iff.rfl
  | step i outcome =>
    constructor
    · intro hstarted htest hex
      obtain ⟨hup, -, hdone⟩ := hstarted htest hex
      exact ⟨hup, betweenFlags_of_startDone hdone⟩
    · intro hok htest hex
      obtain ⟨hup, hgap⟩ := hok htest hex
      exact ⟨hup, hguarded.phase.started hup hex hgap⟩

instance (starter : Fin k) (d : Daemon k) : ∀ a, Decidable (KillsOnly starter d a)
  | .request i r => inferInstanceAs (Decidable (i ≠ starter ∧ r = .kill))
  | .step .. | .disconnect .. => inferInstanceAs (Decidable True)

instance (starter : Fin k) (d : Daemon k) : ∀ a, Decidable (ShutdownInTime starter d a)
  | .step i _ => inferInstanceAs (Decidable ((d.pc i).testsExited = true → d.app.exited = false →
      d.app.startingUp = false ∧ (d.pc starter).betweenFlags = false))
  | .request .. | .disconnect .. => inferInstanceAs (Decidable True)

/-- A kill that arrives when the start has set both flags. -/
def killDuringStart (starter i : Fin k) : List (DaemonLabel k) :=
  List.replicate 6 (.step starter goodStart) ++
    .request i .kill :: List.replicate 2 (.step i goodStart)

theorem killDuringStart_enters :
    ¬ ∀ (k : Nat) (starter : Fin k) (d : Daemon k),
      (teardownMachine starter).ReachWhile (KillsOnly starter) d →
      ∀ a, EntersStarted starter d a := by
  intro hclaim
  have hrun : (teardownMachine (0 : Fin 2)).runWhile (KillsOnly 0) (.starting 0)
      (killDuringStart 0 1) = some (((teardownMachine (0 : Fin 2)).runWhile (KillsOnly 0)
        (.starting 0) (killDuringStart 0 1)).get (by decide)) :=
    (Option.some_get _).symm
  have hstarted := hclaim 2 0 _ ⟨_, rfl, Machine.leads_of_runWhile hrun⟩ (.step 1 goodStart) rfl
    (by decide)
  exact absurd hstarted.1 (by decide)

/-- A kill that arrives when the start is through stands before the test of `exited`. -/
def killAfterStart (starter i : Fin k) : List (DaemonLabel k) :=
  List.replicate 22 (.step starter goodStart) ++
    .request i .kill :: List.replicate 2 (.step i goodStart)

theorem teardown_started_killAfterStart :
    let d := ((teardownMachine (0 : Fin 2)).runWhile
      (fun d a => KillsOnly 0 d a ∧ ShutdownInTime 0 d a) (.starting 0)
      (killAfterStart 0 1)).get (by decide)
    EntersStarted 0 d (.step 1 goodStart) ↔ ShutdownInTime 0 d (.step 1 goodStart) :=
  teardown_started 0 ⟨_, rfl, Machine.leads_of_runWhile (Option.some_get _).symm⟩
    (.step 1 goodStart)

end NetShare
