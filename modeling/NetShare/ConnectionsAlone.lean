import NetShare.Answers
import NetShare.Connections

/-!
# A thread alone

When no other thread moves, the steps of a thread between two lines amount to what its handler does
as a whole: the lines it sends, the application it leaves, and whether the process is still there.
-/

namespace NetShare

open Reasoning ConfigurationWorker

/-! ## 1. Steps of one thread -/

/-- A thread by itself; the label is how a start ends that begins in the step. -/
def threadMachine : Machine Thread StartOutcome where
  init t := t.pc = .receive
  next t outcome := if t.alive then t.step outcome else none

namespace Thread

/-- The thread gets from `t` to `t'` by its own steps. -/
def Alone (outcome : StartOutcome) (t t' : Thread) : Prop :=
  threadMachine.Leads (fun _ a => a = outcome) t t'

variable {outcome : StartOutcome} {t u v : Thread}

theorem Alone.refl (t : Thread) : t.Alone outcome t := Relation.ReflTransGen.refl

theorem Alone.trans (h : t.Alone outcome u) (h' : u.Alone outcome v) : t.Alone outcome v :=
  Relation.ReflTransGen.trans h h'

-- One step, for the places where a test has to be decided first.
theorem Alone.step (halive : t.alive = true) (h : t.step outcome = some u) :
    t.Alone outcome u := by
  refine Relation.ReflTransGen.single ⟨outcome, rfl, ?_⟩
  simp only [threadMachine, halive, if_true, h]

/-- So many steps, evaluated. -/
theorem Alone.of_run (n : Nat)
    (h : threadMachine.run t (List.replicate n outcome) = some u) : t.Alone outcome u :=
  Machine.leads_of_run (fun _ _ ha => List.eq_of_mem_replicate ha) h

/-- The process ends on the way, and nothing is sent any more. -/
def Dies (outcome : StartOutcome) (t : Thread) : Prop :=
  ∃ t', t.Alone outcome t' ∧ t'.alive = false ∧ t'.sent = t.sent

theorem Dies.of_run (n : Nat)
    (h : threadMachine.run t (List.replicate n outcome) = some u) (hdead : u.alive = false)
    (hsent : u.sent = t.sent) : t.Dies outcome :=
  ⟨u, .of_run n h, hdead, hsent⟩

-- Steps that send nothing may come before the end of the process.
theorem Dies.of_alone (h : t.Alone outcome u) (hsent : u.sent = t.sent) (hu : u.Dies outcome) :
    t.Dies outcome := by
  obtain ⟨t', hsteps, hdead, hsent'⟩ := hu
  exact ⟨t', h.trans hsteps, hdead, hsent'.trans hsent⟩

/-! ## 2. The functions of the application -/

/-- A function of the application comes back at `pc` with this application, or is a fault. -/
def Returns (outcome : StartOutcome) (t : Thread) (result : Option Application)
    (pc : ConnectionPc) : Prop :=
  match result with
  | some app => t.Alone outcome { t with app, pc }
  | none => t.Dies outcome

theorem Returns.of_alone {result : Option Application} {pc : ConnectionPc}
    (h : t.Alone outcome u) (hsent : u.sent = t.sent) (halive : u.alive = t.alive)
    (hu : u.Returns outcome result pc) : t.Returns outcome result pc := by
  cases result with
  | none => exact Dies.of_alone h hsent hu
  | some app =>
    have hu' : u.Alone outcome { u with app, pc } := hu
    rw [hsent, halive] at hu'
    exact h.trans hu'

/-- A statement, and what follows it if it is no fault. -/
theorem Returns.bind {app : Application} {result : Option Application}
    {f : Application → Option Application} {pc pc' pc'' : ConnectionPc} {sent : List Json}
    (hstep : Thread.step ⟨app, pc, sent, true⟩ outcome =
      some (Thread.update ⟨app, pc, sent, true⟩ result pc'))
    (hrest : ∀ app', Returns outcome ⟨app', pc', sent, true⟩ (f app') pc'') :
    Returns outcome ⟨app, pc, sent, true⟩ (result.bind f) pc'' := by
  cases result with
  | none => exact ⟨_, .step rfl hstep, rfl, rfl⟩
  | some app' => exact .of_alone (.step rfl hstep) rfl rfl (hrest app')

variable (outcome) (app : Application) (sent : List Json)

/-- The steps of `initRun`, one way through it for each of its ends. -/
theorem initRun_alone (o : StartOutcome) :
    match app.initRun o with
    | some (successful, app') => Alone outcome ⟨app, .initRun o .clearCrash, sent, true⟩
        ⟨app', if successful then .callRun o else .sendCrashed, sent, true⟩
    | none => Dies outcome ⟨app, .initRun o .clearCrash, sent, true⟩ := by
  have hfirst : Alone outcome ⟨app, .initRun o .clearCrash, sent, true⟩
      ⟨{ app with crashed := false, crashReason := "", exited := false, startingUp := true },
        .initRun o .readConfig, sent, true⟩ := .of_run 3 rfl
  obtain ⟨conf, udpconfigs, references, workers, Workers, handlers, exited, startingUp, crashed,
    crashReason, namesShared⟩ := app
  obtain ⟨configFile, adapters, wintun, adapter, session, ctrl⟩ := o
  cases configFile <;> cases namesShared
  case throws.true | throws.false => exact hfirst.trans (.of_run 2 rfl)
  case missing.true => exact .of_alone hfirst rfl (.of_run 1 rfl rfl rfl)
  all_goals
    cases adapters with
    | zero => exact hfirst.trans (.of_run 3 rfl)
    | succ adapters =>
      cases wintun with
      | false => exact hfirst.trans (.of_run 6 rfl)
      | true =>
        cases adapter with
        | false => exact hfirst.trans (.of_run 8 rfl)
        | true =>
          cases session with
          | false => exact hfirst.trans (.of_run 9 rfl)
          | true => exact hfirst.trans (.of_run 7 rfl)

/-- The steps of `shutdown`. -/
theorem shutdown_alone (caller : ShutdownCaller) :
    Returns outcome ⟨app, .shutdown caller .test, sent, true⟩ app.shutdown caller.resume := by
  cases hex : app.exited with
  | true =>
    rw [Application.shutdown_of_exited hex]
    refine .step rfl ?_
    simp only [Thread.step, stepShutdown, hex, if_true]
    rfl
  | false =>
    have htest : Thread.step ⟨app, .shutdown caller .test, sent, true⟩ outcome =
        some ⟨app, .shutdown caller .readStats, sent, true⟩ := by
      simp only [Thread.step, stepShutdown, hex, Bool.false_eq_true, if_false]
      rfl
    rw [Application.shutdown_eq_bind hex]
    refine .of_alone (.step rfl htest) rfl rfl (.bind rfl fun app₁ => ?_)
    refine .of_alone (.of_run 1 rfl) rfl rfl (.bind rfl fun app₂ => ?_)
    refine .bind rfl fun app₃ => .bind rfl fun app₄ => ?_
    rw [← Option.bind_fun_some app₄.clearConf]
    exact .bind rfl fun app₅ => .of_run 1 rfl

/-- The steps of `run`, whose `shutdown` is that of a failing `SetConsoleCtrlHandler`. -/
theorem run_alone (o : StartOutcome) :
    Returns outcome ⟨app, .run o .setRunning, sent, true⟩ (app.run o) (.run o .ret) := by
  obtain ⟨conf, udpconfigs, references, workers, Workers, handlers, exited, startingUp, crashed,
    crashReason, namesShared⟩ := app
  cases conf with
  | null | freed => exact .of_run 1 rfl rfl rfl
  | live conf =>
    cases udpconfigs with
    | null | freed => exact .of_run 2 rfl rfl rfl
    | live size =>
      cases references with
      | null | freed => exact .of_run 3 rfl rfl rfl
      | live references =>
        let app' : Application := ⟨.live { conf with isRunning := some true }, .live size,
          .live references, size + 2, .live (size + 2), handlers, exited, startingUp, crashed,
          crashReason, namesShared⟩
        have htwo : Alone outcome ⟨⟨.live conf, .live size, .live references, workers, Workers,
            handlers, exited, startingUp, crashed, crashReason, namesShared⟩, .run o .setRunning,
            sent, true⟩
            ⟨app', .run o .startThreads, sent, true⟩ := .of_run 2 rfl
        by_cases hsize : size ≤ references
        · have hthreads : Thread.step ⟨app', .run o .startThreads, sent, true⟩ outcome =
              some ⟨app', .run o .setCtrlHandler, sent, true⟩ := by
            simp [Thread.step, stepRun, app', Pointer.target?, update, hsize]
          have hfirst := htwo.trans (.step rfl hthreads)
          simp only [Application.run, Pointer.target?, hsize, if_true]
          cases hctrl : o.setConsoleCtrlHandler with
          | true =>
            have hinstalled : Thread.step ⟨app', .run o .setCtrlHandler, sent, true⟩ outcome =
                some ⟨app', .run o .registerExit, sent, true⟩ := by
              simp only [Thread.step, stepRun, hctrl, if_true]
              rfl
            exact hfirst.trans (.trans (.step rfl hinstalled) (.of_run 2 rfl))
          | false =>
            have hcall : Thread.step ⟨app', .run o .setCtrlHandler, sent, true⟩ outcome =
                some ⟨app', .shutdown (.run o) .test, sent, true⟩ := by
              simp only [Thread.step, stepRun, hctrl, Bool.false_eq_true, if_false]
              rfl
            have hdown := shutdown_alone outcome app' sent (.run o)
            cases hshutdown : app'.shutdown with
            | none =>
              rw [hshutdown] at hdown
              exact Dies.of_alone (hfirst.trans (.step rfl hcall)) rfl hdown
            | some app'' =>
              rw [hshutdown] at hdown
              exact hfirst.trans (.trans (.step rfl hcall) (hdown.trans (.of_run 2 rfl)))
        · have hfault : Thread.step ⟨app', .run o .startThreads, sent, true⟩ outcome =
              some ⟨app', .run o .startThreads, sent, false⟩ := by
            simp [Thread.step, stepRun, app', Pointer.target?, update, hsize]
          simp only [Application.run, Pointer.target?, hsize, if_false]
          exact ⟨_, htwo.trans (.step rfl hfault), rfl, rfl⟩

/-- `exit` calls `nsShutdown` as often as it is registered, on a driver that is stopped. -/
theorem exit_alone (h : app.exited = true) (called : Nat) :
    Dies outcome ⟨app, .exit called, sent, true⟩ := by
  induction hleft : app.exitHandlers - called generalizing called with
  | zero =>
    refine ⟨⟨app, .exit called, sent, false⟩, .step rfl ?_, rfl, rfl⟩
    have hdone : ¬ called < app.exitHandlers := by omega
    simp only [Thread.step, hdone, if_false]
  | succ left ih =>
    have hmore : called < app.exitHandlers := by omega
    have hcall : Alone outcome ⟨app, .exit called, sent, true⟩
        ⟨app, .shutdown (.exit (called + 1)) .test, sent, true⟩ := by
      refine .step rfl ?_
      simp only [Thread.step, hmore, if_true]
      rfl
    have hreturn := shutdown_alone outcome app sent (.exit (called + 1))
    rw [Application.shutdown_of_exited h] at hreturn
    exact .of_alone (hcall.trans hreturn) rfl (ih (called + 1) (by omega))

/-! ## 3. The handlers -/

/-- How a thread stands after the handling of a line: before the next one, unless the handling has
ended the process. -/
def After (result : Except Halt Unit × World) (t : Thread) : Prop :=
  t.sent = result.2.sent ∧
    match result.1 with
    | .ok () => t.alive = true ∧ t.app = result.2.app ∧
        t.pc = if result.2.running then .receive else .closed
    | .error _ => t.alive = false

/-- The thread ends in this way when it goes on alone. -/
def Ends (outcome : StartOutcome) (t : Thread) (result : Except Halt Unit × World) : Prop :=
  ∃ t', t.Alone outcome t' ∧ t'.After result

variable {outcome app sent} {result : Except Halt Unit × World}

-- The end of a handler is not moved by the steps that lead there.
theorem Ends.of_alone (h : t.Alone outcome u) (hu : u.Ends outcome result) :
    t.Ends outcome result := by
  obtain ⟨t', hsteps, hafter⟩ := hu
  exact ⟨t', h.trans hsteps, hafter⟩

/-- The handler returns with these lines sent. -/
theorem Ends.of_receive {w : World} (happ : w.app = app) (hsent : w.sent = sent)
    (hrunning : w.running = true) :
    Ends outcome ⟨app, .receive, sent, true⟩ (.ok (), w) :=
  ⟨_, .refl _, hsent.symm, rfl, happ.symm, by rw [hrunning]; rfl⟩

theorem Ends.of_dies {halt : Halt} {w : World} (h : t.Dies outcome) (hsent : w.sent = t.sent) :
    t.Ends outcome (.error halt, w) := by
  obtain ⟨t', hsteps, hdead, hsent'⟩ := h
  exact ⟨t', hsteps, hsent'.trans hsent.symm, hdead⟩

/-- A test of `startingUp` that finds a start going on ends the handling of a `driver.state` Put. -/
theorem startup_ends {pc : ConnectionPc} {doc : Json} {state : String}
    (hdoc : doc.state? = some state) (hstate : state = "running" ∨ state = "stopped")
    (hup : app.startingUp = true)
    (hstep : Thread.step ⟨app, pc, [], true⟩ outcome =
      some ⟨app, .receive, [getDriverStateResponse "startup"], true⟩) :
    Ends outcome ⟨app, pc, [], true⟩ ((parseDriverStatePutMessage outcome doc).exec { app }) := by
  rw [driverState_startingUp hdoc hstate hup]
  exact .of_alone (.step rfl hstep) (.of_receive rfl rfl rfl)

-- The cases are those of the two guards and of the end of `initRun`.
theorem run_ends (app : Application) :
    Ends outcome ⟨app, .runTestStartingUp, [], true⟩
      ((parseDriverStatePutMessage outcome Request.run.line).exec { app }) := by
  have hdoc : Request.run.line.state? = some "running" := rfl
  cases hup : app.startingUp with
  | true =>
    apply startup_ends hdoc (.inl rfl) hup
    simp only [Thread.step, Application.isStartingUp, hup, if_true]
    rfl
  | false =>
    have htest : Thread.step ⟨app, .runTestStartingUp, [], true⟩ outcome =
        some ⟨app, .runTestRunning, [], true⟩ := by
      simp only [Thread.step, Application.isStartingUp, hup, Bool.false_eq_true, if_false]
      rfl
    refine .of_alone (.step rfl htest) ?_
    cases hex : app.exited with
    | false =>
      have hrunning : Thread.step ⟨app, .runTestRunning, [], true⟩ outcome =
          some ⟨app, .receive, [getDriverStateResponse "running"], true⟩ := by
        simp only [Thread.step, Application.isRunning, hex, Bool.not_false, if_true]
        rfl
      rw [driverState_run_running hdoc hup hex]
      exact .of_alone (.step rfl hrunning) (.of_receive rfl rfl rfl)
    | true =>
      have hcall : Thread.step ⟨app, .runTestRunning, [], true⟩ outcome =
          some ⟨app, .callInitRun, [], true⟩ := by
        simp only [Thread.step, Application.isRunning, hex, Bool.not_true, Bool.false_eq_true,
          if_false]
        rfl
      have hinit := initRun_alone outcome app [getDriverStateUpdate "startup"] outcome
      refine .of_alone (.trans (.step rfl hcall) (.of_run 1 rfl)) ?_
      cases hcalled : app.initRun outcome with
      | none =>
        rw [hcalled] at hinit
        rw [driverState_run_fault (w := { app }) hdoc hup hex hcalled]
        exact .of_dies hinit rfl
      | some result =>
        obtain ⟨successful, app₁⟩ := result
        rw [hcalled] at hinit
        dsimp only at hinit
        rw [Application.initRun_fst hcalled] at hinit
        refine .of_alone hinit ?_
        cases hsucc : outcome.succeeds with
        | false =>
          rw [driverState_run_fails (w := { app }) hdoc hup hex hcalled hsucc]
          exact .of_alone (.of_run 1 rfl) (.of_receive rfl rfl rfl)
        | true =>
          obtain ⟨app', hrun, hexec, -⟩ :=
            driverState_run_succeeds (w := { app }) hdoc hup hex hcalled hsucc
          have hsteps := run_alone outcome app₁ [getDriverStateUpdate "startup"] outcome
          rw [hrun] at hsteps
          rw [hexec]
          exact .of_alone (.trans (.of_run 1 rfl) (Alone.trans hsteps (.of_run 2 rfl)))
            (.of_receive rfl rfl rfl)

-- Here the second guard leads to `shutdown`, which may be a fault.
theorem stop_ends (app : Application) :
    Ends outcome ⟨app, .stopTestStartingUp, [], true⟩
      ((parseDriverStatePutMessage outcome Request.stop.line).exec { app }) := by
  have hdoc : Request.stop.line.state? = some "stopped" := rfl
  cases hup : app.startingUp with
  | true =>
    apply startup_ends hdoc (.inr rfl) hup
    simp only [Thread.step, Application.isStartingUp, hup, if_true]
    rfl
  | false =>
    have htest : Thread.step ⟨app, .stopTestStartingUp, [], true⟩ outcome =
        some ⟨app, .stopTestRunning, [], true⟩ := by
      simp only [Thread.step, Application.isStartingUp, hup, Bool.false_eq_true, if_false]
      rfl
    refine .of_alone (.step rfl htest) ?_
    cases hex : app.exited with
    | true =>
      have hstopped : Thread.step ⟨app, .stopTestRunning, [], true⟩ outcome =
          some ⟨app, .receive, [getDriverStateResponse "stopped"], true⟩ := by
        simp only [Thread.step, Application.isRunning, hex, Bool.not_true, Bool.false_eq_true,
          if_false]
        rfl
      rw [driverState_stop_stopped hdoc hup hex]
      exact .of_alone (.step rfl hstopped) (.of_receive rfl rfl rfl)
    | false =>
      have hcall : Thread.step ⟨app, .stopTestRunning, [], true⟩ outcome =
          some ⟨app, .shutdown .stop .test, [getDriverStateResponse "running"], true⟩ := by
        simp only [Thread.step, Application.isRunning, hex, Bool.not_false, if_true]
        rfl
      have hdown := shutdown_alone outcome app [getDriverStateResponse "running"] .stop
      refine .of_alone (.step rfl hcall) ?_
      cases hshutdown : app.shutdown with
      | none =>
        rw [hshutdown] at hdown
        rw [driverState_stop_fault hdoc hup hex hshutdown]
        exact .of_dies hdown rfl
      | some app' =>
        rw [hshutdown] at hdown
        have hagain : Thread.step ⟨app', .stopTestAgain, [getDriverStateResponse "running"], true⟩
            outcome = some ⟨app', .receive, [getDriverStateResponse "running",
              getDriverStateResponse "stopped"], true⟩ := by
          simp only [Thread.step, Application.isRunning, (Application.shutdown_flags hshutdown).1,
            Bool.not_true, Bool.false_eq_true, if_false]
          rfl
        rw [driverState_stop_running hdoc hup hex hshutdown]
        exact .of_alone (hdown.trans (.step rfl hagain)) (.of_receive rfl rfl rfl)

/-- Once the driver is stopped, a kill sends its last two lines and ends the process. -/
theorem killTestStopped_ends {w : World} (hex : app.exited = true)
    (hsent : w.sent = sent ++ [getDeamonStateUpdate "worker.stopped"] ++
      [getDeamonStateResponse "stopped"]) :
    Ends outcome ⟨app, .killTestStopped, sent, true⟩ (.error .exit, w) := by
  have hstopped : Thread.step ⟨app, .killTestStopped, sent, true⟩ outcome =
      some ⟨app, .killRespond, sent ++ [getDeamonStateUpdate "worker.stopped"], true⟩ := by
    simp only [Thread.step, Application.isRunning, hex, Bool.not_true, Bool.false_eq_true, if_false]
    rfl
  exact .of_alone (.trans (.step rfl hstopped) (.of_run 1 rfl))
    (.of_dies (exit_alone outcome app _ hex 0) hsent)

-- By itself the loop of a kill takes one round: `shutdown` has set `exited`.
theorem kill_ends (app : Application) :
    Ends outcome ⟨app, .killTestStartingUp, [], true⟩
      ((parseDeamonStatePutMessage Request.kill.line).exec { app }) := by
  have hdoc : Request.kill.line.state? = some "stopped" := rfl
  let startup := if app.startingUp then [getDeamonStateUpdate "worker.startup"] else []
  have htest : Thread.step ⟨app, .killTestStartingUp, [], true⟩ outcome =
      some ⟨app, .killTestRunning, startup, true⟩ := by
    cases hup : app.startingUp <;>
      simp [Thread.step, Application.isStartingUp, hup, startup, send, goto]
  refine .of_alone (.step rfl htest) ?_
  cases hex : app.exited with
  | true =>
    have hskip : Thread.step ⟨app, .killTestRunning, startup, true⟩ outcome =
        some ⟨app, .killTestStopped, startup, true⟩ := by
      simp only [Thread.step, Application.isRunning, hex, Bool.not_true, Bool.false_eq_true,
        if_false]
      rfl
    rw [deamonState_exit hdoc (Application.shutdown_of_exited hex)]
    refine .of_alone (.step rfl hskip) (killTestStopped_ends hex ?_)
    simp [deamonUpdates, hex, startup]
  | false =>
    have hcall : Thread.step ⟨app, .killTestRunning, startup, true⟩ outcome =
        some ⟨app, .shutdown .kill .test, startup ++ [getDeamonStateUpdate "worker.running"],
          true⟩ := by
      simp only [Thread.step, Application.isRunning, hex, Bool.not_false, if_true]
      rfl
    have hdown := shutdown_alone outcome app (startup ++ [getDeamonStateUpdate "worker.running"])
      .kill
    refine .of_alone (.step rfl hcall) ?_
    cases hshutdown : app.shutdown with
    | none =>
      rw [hshutdown] at hdown
      rw [deamonState_fault hdoc hshutdown]
      exact .of_dies hdown rfl
    | some app' =>
      rw [hshutdown] at hdown
      rw [deamonState_exit hdoc hshutdown]
      refine .of_alone hdown (killTestStopped_ends (Application.shutdown_flags hshutdown).1 ?_)
      simp [deamonUpdates, hex, startup]

end Thread

/-- **A thread alone does what the handler of its line does.** -/
theorem handle_alone (env : Environment) (r : Request) (app : Application) :
    Thread.Ends env.start (Thread.receive { app, pc := .receive } r)
      (handle env (some r.line) { app }) := by
  have hasks : r.line.Asks "Put" r.on := by cases r <;> exact ⟨rfl, rfl⟩
  rw [handle_put_on hasks]
  cases r with
  | run => exact Thread.run_ends app
  | stop => exact Thread.stop_ends app
  | kill => exact Thread.kill_ends app
  | close => exact ⟨_, .refl _, rfl, rfl, rfl, rfl⟩

/-! ## 4. The daemon while one thread moves -/

namespace Thread

-- The lines sent are only ever appended to, in every statement of every function.
theorem update_sent (t : Thread) (lines : List Json) (app : Option Application)
    (pc : ConnectionPc) :
    ({ t with sent := lines ++ t.sent } : Thread).update app pc =
      { t.update app pc with sent := lines ++ (t.update app pc).sent } := by
  cases app <;> rfl

theorem stepInitRun_sent (t : Thread) (lines : List Json) (outcome : StartOutcome)
    (pc : InitRunPc) :
    ({ t with sent := lines ++ t.sent } : Thread).stepInitRun outcome pc =
      { t.stepInitRun outcome pc with sent := lines ++ (t.stepInitRun outcome pc).sent } := by
  cases pc with
  | readConfig =>
    unfold stepInitRun
    dsimp only
    split
    · rfl
    · exact update_sent t lines _ _
  | checkAdapters =>
    unfold stepInitRun
    dsimp only
    split
    · exact update_sent t lines _ _
    · rfl
  | initializeWintun =>
    unfold stepInitRun
    dsimp only
    split <;> rfl
  | generateUDPConfigs | getAdapterHandle | startSession => exact update_sent t lines _ _
  | ret successful => cases successful <;> rfl
  | clearCrash | setRunning | setStartingUp | setExited | clearStartingUp => rfl

theorem stepRun_sent (t : Thread) (lines : List Json) (outcome : StartOutcome) (pc : RunPc) :
    ({ t with sent := lines ++ t.sent } : Thread).stepRun outcome pc =
      { t.stepRun outcome pc with sent := lines ++ (t.stepRun outcome pc).sent } := by
  cases pc with
  | startThreads =>
    unfold stepRun
    dsimp only
    split <;> exact update_sent t lines _ _
  | setCtrlHandler =>
    unfold stepRun
    dsimp only
    split <;> rfl
  | setRunning | createWorkers => exact update_sent t lines _ _
  | registerExit | clearStartingUp | ret => rfl

theorem stepShutdown_sent (t : Thread) (lines : List Json) (caller : ShutdownCaller)
    (pc : TeardownPc) :
    ({ t with sent := lines ++ t.sent } : Thread).stepShutdown caller pc =
      { t.stepShutdown caller pc with sent := lines ++ (t.stepShutdown caller pc).sent } := by
  cases pc with
  | test =>
    unfold stepShutdown
    dsimp only
    split <;> rfl
  | readStats | stopWorkers | clearWorkers | endSession | clearConf =>
    exact update_sent t lines _ _
  | setExited | ret => rfl

/-- A step does not depend on what has been sent. -/
theorem step_sent (t : Thread) (outcome : StartOutcome) (lines : List Json) :
    ({ t with sent := lines ++ t.sent } : Thread).step outcome =
      (t.step outcome).map fun u => { u with sent := lines ++ u.sent } := by
  obtain ⟨app, pc, sent, alive⟩ := t
  cases pc with
  | receive | closed => rfl
  | initRun o pc => exact congrArg some (stepInitRun_sent ⟨app, _, sent, alive⟩ lines o pc)
  | run o pc => exact congrArg some (stepRun_sent ⟨app, _, sent, alive⟩ lines o pc)
  | shutdown caller pc =>
    exact congrArg some (stepShutdown_sent ⟨app, _, sent, alive⟩ lines caller pc)
  | callInitRun | callRun | sendRunning | sendCrashed | stopTestAgain | killRespond =>
    simp only [step, Option.map_some, send, goto, List.append_assoc]
  | runTestStartingUp | runTestRunning | stopTestStartingUp | stopTestRunning
  | killTestStartingUp | killTestRunning | killTestStopped | exit =>
    simp only [step, Option.map_some]
    split <;> simp only [send, goto, List.append_assoc]

end Thread

namespace Daemon

variable {k : Nat}

-- Two moves of a thread send their lines one after the other.
theorem put_put (d : Daemon k) (i : Fin k) (t u : Thread) :
    (d.put i t).put i u = d.put i { u with sent := t.sent ++ u.sent } := by
  simp only [put, Function.update_idem, Function.update_self, List.append_assoc]

/-- The steps of a thread are steps of the daemon. -/
theorem leads_of_alone (d : Daemon k) (i : Fin k) {outcome : StartOutcome} {t t' : Thread}
    (h : t.Alone outcome t') :
    (daemonMachine k).Leads (fun _ a => a = .step i outcome) (d.put i t) (d.put i t') := by
  induction h with
  | refl => exact .refl
  | @tail b c _ hlast ih =>
    refine ih.tail ⟨.step i outcome, rfl, ?_⟩
    obtain ⟨a, ha, hnext⟩ := hlast
    simp only [threadMachine, ha, Option.ite_none_right_eq_some] at hnext
    obtain ⟨halive, hstep⟩ := hnext
    -- the lines that `b` has sent are in the channel already
    have hthread : (d.put i b).thread i = { b with sent := [] } := by
      simp only [thread, put, Function.update_self, halive]
    have hsent := Thread.step_sent { b with sent := [] } outcome b.sent
    rw [show ({ b with sent := b.sent ++ [] } : Thread) = b by rw [List.append_nil], hstep] at hsent
    obtain ⟨u, hu, hc⟩ := Option.map_eq_some_iff.mp hsent.symm
    have hput : (d.put i b).put i u = d.put i c := by rw [put_put, hc]
    show (d.put i b).next (.step i outcome) = some (d.put i c)
    simp only [next, hthread, hu, Option.map_some, hput]
    exact if_pos halive

end Daemon

/-- **A request that is handled while no other thread moves has the effect of its handler.** -/
theorem request_alone {k : Nat} (d : Daemon k) (halive : d.alive = true) {i : Fin k}
    (hpc : d.pc i = .receive) (env : Environment) (r : Request) :
    ∃ t, (daemonMachine k).Leads (fun _ a => a = .request i r ∨ a = .step i env.start)
        d (d.put i t) ∧ t.After (handle env (some r.line) { app := d.app }) := by
  obtain ⟨t, hsteps, hafter⟩ := handle_alone env r d.app
  refine ⟨t, ?_, hafter⟩
  have hreceive : d.next (.request i r) = some (d.put i ((d.thread i).receive r)) := by
    simp only [Daemon.next, halive, if_true, hpc]
  have hthread : d.thread i = { app := d.app, pc := .receive } := by rw [Daemon.thread, hpc]
  rw [hthread] at hreceive
  exact .head ⟨_, .inl rfl, hreceive⟩ ((d.leads_of_alone i hsteps).mono fun _ _ => .inr)

/-- A kill while another thread is about to start the driver. -/
theorem request_alone_kill :
    let d : Daemon 2 := { pc := Function.update (fun _ => .receive) 1 .callInitRun }
    ∃ t, (daemonMachine 2).Leads (fun _ a => a = .request 0 .kill ∨ a = .step 0 goodStart)
        d (d.put 0 t) ∧
      t.After (handle (environmentOf goodStart) (some Request.kill.line) { app := d.app }) :=
  request_alone _ rfl rfl (environmentOf goodStart) .kill

end NetShare
