import NetShare.DriverState

/-!
# The threads of the connections

The daemon has a thread for each connection and no lock around `Application`.  Here the handlers of
`driver.state` and `deamon.state`, and what they call, are taken apart: a step is one test or
assignment of a flag, or one use of the pointers, with the sending of a line that goes with it.  The
threads take their steps in any order.
-/

namespace NetShare

open Reasoning ConfigurationWorker

/-! ## 1. Control points -/

/-- Before each statement of `initRun`; `ret` is before its return. -/
inductive InitRunPc where
  | clearCrash
  | setRunning
  | setStartingUp
  | readConfig
  | checkAdapters
  | initializeWintun
  | generateUDPConfigs
  | getAdapterHandle
  | startSession
  | setExited
  | clearStartingUp
  | ret (successful : Bool)
deriving DecidableEq

inductive RunPc where
  | setRunning
  | createWorkers
  | startThreads
  | setCtrlHandler
  | registerExit
  | clearStartingUp
  | ret
deriving DecidableEq

/-- `shutdown`: before its test of `exited`, then in its body. -/
inductive TeardownPc where
  | test
  | readStats
  | setExited
  | stopWorkers
  | clearWorkers
  | endSession
  | clearConf
  | ret
deriving DecidableEq

/-- Who called `shutdown`: `run`, the handler of a stop or a kill, or `exit` after so many calls of
`nsShutdown`. -/
inductive ShutdownCaller where
  | run (outcome : StartOutcome)
  | stop
  | kill
  | exit (called : Nat)

/-- Where the thread of a connection is: in `ReceiveLine`, after its loop, or in a handler. -/
inductive ConnectionPc where
  | receive
  | closed
  | runTestStartingUp
  | runTestRunning
  | callInitRun
  | initRun (outcome : StartOutcome) (pc : InitRunPc)
  | callRun (outcome : StartOutcome)
  | run (outcome : StartOutcome) (pc : RunPc)
  | sendRunning
  | sendCrashed
  | stopTestStartingUp
  | stopTestRunning
  | stopTestAgain
  | killTestStartingUp
  | killTestRunning
  | killTestStopped
  | killRespond
  | exit (called : Nat)
  | shutdown (caller : ShutdownCaller) (pc : TeardownPc)

/-! ## 2. The steps of a thread -/

/-- The application as a thread sees it, the thread, what it has sent, and whether the process is
alive: it is not after `exit`, nor after a fault. -/
structure Thread where
  app : Application
  pc : ConnectionPc
  sent : List Json := []
  alive : Bool := true

namespace Thread

def goto (t : Thread) (pc : ConnectionPc) : Thread := { t with pc }

def send (t : Thread) (line : Json) : Thread := { t with sent := t.sent ++ [line] }

/-- Goes on with the application after a statement, which is `none` if the statement is a fault. -/
def update (t : Thread) (app : Option Application) (pc : ConnectionPc) : Thread :=
  match app with
  | some app => { t with app, pc }
  | none => { t with alive := false }

end Thread

namespace Application

/-- A statement that uses `conf`, and is a fault where `f` is. -/
def withConf (app : Application) (f : Config → Option Config) : Option Application :=
  (app.conf.target?.bind f).map fun conf => { app with conf := .live conf }

/-- `conf->isRunning` and `conf->quitEvent`. -/
def stopWorkers (app : Application) : Option Application :=
  app.withConf fun conf =>
    if conf.quitEvent = .unset then none else some { conf with isRunning := some false }

/-- From `closeSockets` to `CloseHandle`. -/
def endSession (app : Application) : Option Application :=
  if app.udpconfigs.target?.isSome then
    app.withConf fun conf =>
      if conf.sessionHandle = .opened ∧ conf.adapterHandle = .opened then
        some { conf with sessionHandle := .closed, adapterHandle := .closed, quitEvent := .closed }
      else none
  else none

def clearConf (app : Application) : Option Application :=
  match app.udpconfigs.delete, app.udpconfigsReferences.delete with
  | some udpconfigs, some udpconfigsReferences =>
    some { app with conf := .null, udpconfigs, udpconfigsReferences }
  | _, _ => none

/-- The flags and the reason of a crash are those of before. -/
structure SameFlags (app app' : Application) : Prop where
  exited : app'.exited = app.exited
  startingUp : app'.startingUp = app.startingUp
  crashReason : app'.crashReason = app.crashReason

section

variable {app app' : Application}

-- No use of the pointers touches the flags.
theorem withConf_flags {f : Config → Option Config} (h : app.withConf f = some app') :
    app.SameFlags app' := by
  obtain ⟨conf, -, rfl⟩ := Option.map_eq_some_iff.mp h
  exact ⟨rfl, rfl, rfl⟩

theorem stopWorkers_flags (h : app.stopWorkers = some app') : app.SameFlags app' :=
  withConf_flags h

theorem clearWorkers_flags (h : app.clearWorkers = some app') : app.SameFlags app' := by
  obtain ⟨-, h⟩ := Option.ite_none_right_eq_some.mp h
  obtain ⟨workers, -, rfl⟩ := Option.map_eq_some_iff.mp h
  exact ⟨rfl, rfl, rfl⟩

theorem endSession_flags (h : app.endSession = some app') : app.SameFlags app' :=
  withConf_flags (Option.ite_none_right_eq_some.mp h).2

theorem clearConf_flags (h : app.clearConf = some app') : app.SameFlags app' := by
  unfold clearConf at h
  split at h
  · obtain rfl := Option.some.inj h
    exact ⟨rfl, rfl, rfl⟩
  · contradiction

end

/-- `shutdown`, past its test, is its statements one after the other. -/
theorem shutdown_eq_bind {app : Application} (hex : app.exited = false) :
    app.shutdown = (app.withConf some).bind fun app =>
      { app with exited := true }.stopWorkers.bind fun app =>
        app.clearWorkers.bind fun app => app.endSession.bind clearConf := by
  rw [shutdown, hex, if_neg Bool.false_ne_true]
  cases hconf : app.conf with
  | live conf =>
    simp only [withConf, hconf, stopWorkers, Pointer.target?_live, Option.bind_some,
      Option.map_some]
    by_cases hquit : conf.quitEvent = .unset
    · simp only [hquit, if_true, Option.map_none, Option.bind_none]
    · simp only [hquit, if_false, Option.map_some, Option.bind_some]
      unfold clearWorkers
      dsimp only
      by_cases hn : app.numberOfWorkers = 0 ∨ app.Workers.target?.isSome = true
      · simp only [hn, if_true]
        cases app.Workers.delete with
        | none => rfl
        | some Workers =>
          simp only [Option.map_some, Option.bind_some, endSession, withConf]
          cases hsize : app.udpconfigs.target? with
          | none => rfl
          | some size =>
            simp only [Option.isSome_some, if_true, Pointer.target?_live, Option.bind_some]
            split
            next hopen => rfl
            next hopen => rfl
      · simp only [hn, if_false, Option.bind_none]
  | _ => simp only [withConf, hconf]; rfl

end Application

/-- A step of `initRun`. -/
def Thread.stepInitRun (t : Thread) (outcome : StartOutcome) : InitRunPc → Thread
  | .clearCrash =>
    { t with app.crashed := false, app.crashReason := "" }.goto (.initRun outcome .setRunning)
  | .setRunning => { t with app.exited := false }.goto (.initRun outcome .setStartingUp)
  | .setStartingUp => { t with app.startingUp := true }.goto (.initRun outcome .readConfig)
  | .readConfig =>
    match outcome.configFile.internalConfig? with
    | none => { t with app.namesShared := false }.goto (.initRun outcome (.ret false))
    | some internalConfig =>
      -- names that are lost are deleted here, and used by the next statement
      t.update (if t.app.LosesNames outcome then none
          else some { t.app with
            namesShared := true
            conf := .live (.ofAppConfig internalConfig) })
        (.initRun outcome .checkAdapters)
  | .checkAdapters =>
    if outcome.activatedAdapters = 0 then
      let app := t.app.withConf fun conf => some { conf with isRunning := some false }
      t.update (app.map fun app => { app with
          crashed := true
          crashReason := "NO_ACTIVATED_ADAPTERS" })
        (.initRun outcome (.ret false))
    else t.goto (.initRun outcome .initializeWintun)
  | .initializeWintun =>
    if outcome.initializeWintun then t.goto (.initRun outcome .generateUDPConfigs)
    else t.goto (.initRun outcome .setExited)
  | .generateUDPConfigs =>
    let app := t.app.withConf fun conf => some { conf with quitEvent := .opened }
    t.update (app.map fun app => { app with
        udpconfigs := .live (2 * outcome.activatedAdapters)
        udpconfigsReferences := .live (2 * outcome.activatedAdapters) })
      (.initRun outcome .getAdapterHandle)
  | .getAdapterHandle =>
    t.update (t.app.withConf fun conf => some { conf with
        adapterHandle := if outcome.getAdapterHandle then .opened else .null })
      (.initRun outcome (if outcome.getAdapterHandle then .startSession else .setExited))
  | .startSession =>
    t.update (t.app.withConf fun conf =>
        if conf.adapterHandle = .opened then
          some (if outcome.wintunStartSession then { conf with sessionHandle := .opened }
            else { conf with adapterHandle := .closed, sessionHandle := .null })
        else none)
      (.initRun outcome (if outcome.wintunStartSession then .ret true else .setExited))
  | .setExited => { t with app.exited := true }.goto (.initRun outcome .clearStartingUp)
  | .clearStartingUp => { t with app.startingUp := false }.goto (.initRun outcome (.ret false))
  | .ret successful => t.goto (if successful then .callRun outcome else .sendCrashed)

/-- A step of `run`. -/
def Thread.stepRun (t : Thread) (outcome : StartOutcome) : RunPc → Thread
  | .setRunning =>
    t.update (t.app.withConf fun conf => some { conf with isRunning := some true })
      (.run outcome .createWorkers)
  | .createWorkers =>
    t.update (t.app.udpconfigs.target?.map fun size => { t.app with
        numberOfWorkers := size + 2
        Workers := .live (size + 2) })
      (.run outcome .startThreads)
  | .startThreads =>
    match t.app.Workers.target?, t.app.udpconfigsReferences.target? with
    | some _, some references =>
      t.update (if t.app.numberOfWorkers ≤ references + 2 then some t.app else none)
        (.run outcome .setCtrlHandler)
    | _, _ => t.update none t.pc
  | .setCtrlHandler =>
    if outcome.setConsoleCtrlHandler then t.goto (.run outcome .registerExit)
    else t.goto (.shutdown (.run outcome) .test)
  | .registerExit =>
    { t with app.exitHandlers := t.app.exitHandlers + 1 }.goto (.run outcome .clearStartingUp)
  | .clearStartingUp => { t with app.startingUp := false }.goto (.run outcome .ret)
  | .ret => t.goto .sendRunning

/-- Where the thread goes on when `shutdown` returns. -/
def ShutdownCaller.resume : ShutdownCaller → ConnectionPc
  | .run outcome => .run outcome .registerExit
  | .stop => .stopTestAgain
  | .kill => .killTestStopped
  | .exit called => .exit called

/-- A step of `shutdown`. -/
def Thread.stepShutdown (t : Thread) (caller : ShutdownCaller) : TeardownPc → Thread
  | .test =>
    if t.app.exited then t.goto caller.resume else t.goto (.shutdown caller .readStats)
  | .readStats => t.update (t.app.withConf some) (.shutdown caller .setExited)
  | .setExited => { t with app.exited := true }.goto (.shutdown caller .stopWorkers)
  | .stopWorkers => t.update t.app.stopWorkers (.shutdown caller .clearWorkers)
  | .clearWorkers => t.update t.app.clearWorkers (.shutdown caller .endSession)
  | .endSession => t.update t.app.endSession (.shutdown caller .clearConf)
  | .clearConf => t.update t.app.clearConf (.shutdown caller .ret)
  | .ret => t.goto caller.resume

/-- The next step of a thread that is in a handler; `outcome` is how a start ends that begins in
this step. -/
def Thread.step (t : Thread) (outcome : StartOutcome) : Option Thread :=
  match t.pc with
  | .receive | .closed => none
  | .runTestStartingUp =>
    some (if t.app.isStartingUp then (t.send (getDriverStateResponse "startup")).goto .receive
      else t.goto .runTestRunning)
  | .runTestRunning =>
    some (if t.app.isRunning then (t.send (getDriverStateResponse "running")).goto .receive
      else t.goto .callInitRun)
  | .callInitRun =>
    some ((t.send (getDriverStateUpdate "startup")).goto (.initRun outcome .clearCrash))
  | .initRun outcome pc => some (t.stepInitRun outcome pc)
  | .callRun outcome => some (t.goto (.run outcome .setRunning))
  | .run outcome pc => some (t.stepRun outcome pc)
  | .sendRunning => some ((t.send (getDriverStateResponse "running")).goto .receive)
  | .sendCrashed =>
    some ((t.send (getDriverStateResponse "crashed" true t.app.getCrashReason)).goto .receive)
  | .stopTestStartingUp =>
    some (if t.app.isStartingUp then (t.send (getDriverStateResponse "startup")).goto .receive
      else t.goto .stopTestRunning)
  | .stopTestRunning =>
    some (if t.app.isRunning then
        (t.send (getDriverStateResponse "running")).goto (.shutdown .stop .test)
      else (t.send (getDriverStateResponse "stopped")).goto .receive)
  | .stopTestAgain =>
    some ((t.send (getDriverStateResponse
      (if t.app.isRunning then "running" else "stopped"))).goto .receive)
  | .killTestStartingUp =>
    some ((if t.app.isStartingUp then t.send (getDeamonStateUpdate "worker.startup")
      else t).goto .killTestRunning)
  | .killTestRunning =>
    some (if t.app.isRunning then
        (t.send (getDeamonStateUpdate "worker.running")).goto (.shutdown .kill .test)
      else t.goto .killTestStopped)
  | .killTestStopped =>
    some (if t.app.isRunning then t.goto .killTestStartingUp
      else (t.send (getDeamonStateUpdate "worker.stopped")).goto .killRespond)
  | .killRespond => some ((t.send (getDeamonStateResponse "stopped")).goto (.exit 0))
  | .exit called =>
    some (if called < t.app.exitHandlers then t.goto (.shutdown (.exit (called + 1)) .test)
      else { t with alive := false })
  | .shutdown caller pc => some (t.stepShutdown caller pc)

/-! ## 3. Requests -/

/-- The requests of the command line tool. -/
inductive Request where
  | run
  | stop
  | kill
  | close
deriving DecidableEq

namespace Request

def on : Request → String
  | .run | .stop => "driver.state"
  | .kill => "deamon.state"
  | .close => "connection.state"

def state : Request → String
  | .run => "running"
  | .stop | .kill => "stopped"
  | .close => "closed"

/-- The line that is sent. -/
def line (r : Request) : Json :=
  .object [("type", .string "Put"), ("on", .string r.on),
    ("data", .object [("state", .string r.state)])]

/-- Where the handling of the request begins; closing the connection is a single step. -/
def entry : Request → ConnectionPc
  | .run => .runTestStartingUp
  | .stop => .stopTestStartingUp
  | .kill => .killTestStartingUp
  | .close => .closed

end Request

/-- The thread takes a request from `ReceiveLine`. -/
def Thread.receive (t : Thread) (r : Request) : Thread :=
  match r with
  | .close => (t.send closedResponse).goto r.entry
  | _ => t.goto r.entry

/-! ## 4. The daemon -/

/-- `toClient` are the lines sent on each connection and not received yet. -/
structure Daemon (k : Nat) where
  app : Application := {}
  alive : Bool := true
  pc : Fin k → ConnectionPc := fun _ => .receive
  toClient : Fin k → List Json := fun _ => []

inductive DaemonLabel (k : Nat) where
  | request (i : Fin k) (r : Request)
  | step (i : Fin k) (outcome : StartOutcome)
  | disconnect (i : Fin k)
deriving DecidableEq

namespace Daemon

variable {k : Nat}

/-- The thread of a connection, in the application it shares with the others. -/
def thread (d : Daemon k) (i : Fin k) : Thread := { app := d.app, pc := d.pc i }

/-- The daemon after that thread has come this far. -/
def put (d : Daemon k) (i : Fin k) (t : Thread) : Daemon k where
  app := t.app
  alive := t.alive
  pc := Function.update d.pc i t.pc
  toClient := Function.update d.toClient i (d.toClient i ++ t.sent)

def next (d : Daemon k) (a : DaemonLabel k) : Option (Daemon k) :=
  if d.alive then
    match a with
    | .request i r =>
      match d.pc i with
      | .receive => some (d.put i ((d.thread i).receive r))
      | _ => none
    | .step i outcome => ((d.thread i).step outcome).map (d.put i)
    | .disconnect i =>
      match d.pc i with
      | .receive => some (d.put i ((d.thread i).goto .closed))
      | _ => none
  else none

variable {d d' : Daemon k} {i j : Fin k}

-- What `put` does at its own connection and that it leaves the others alone.
@[simp] theorem put_pc_self (d : Daemon k) (i : Fin k) (t : Thread) : (d.put i t).pc i = t.pc := by
  simp only [put, Function.update_self]

theorem put_pc_of_ne (d : Daemon k) (h : j ≠ i) (t : Thread) : (d.put i t).pc j = d.pc j := by
  simp only [put, Function.update_of_ne h]

@[simp] theorem put_toClient_self (d : Daemon k) (i : Fin k) (t : Thread) :
    (d.put i t).toClient i = d.toClient i ++ t.sent := by
  simp only [put, Function.update_self]

theorem put_toClient_of_ne (d : Daemon k) (h : j ≠ i) (t : Thread) :
    (d.put i t).toClient j = d.toClient j := by
  simp only [put, Function.update_of_ne h]

/-- What a step of the daemon comes down to. -/
theorem next_cases {a : DaemonLabel k} (h : d.next a = some d') :
    d.alive = true ∧
      ((∃ i r, a = .request i r ∧ d.pc i = .receive ∧ d' = d.put i ((d.thread i).receive r)) ∨
        (∃ i outcome t, a = .step i outcome ∧ (d.thread i).step outcome = some t ∧ d' = d.put i t) ∨
        ∃ i, a = .disconnect i ∧ d.pc i = .receive ∧ d' = d.put i ((d.thread i).goto .closed)) := by
  unfold next at h
  split at h
  next halive =>
    refine ⟨halive, ?_⟩
    cases a with
    | request i r =>
      dsimp only at h
      split at h
      next hpc => exact .inl ⟨i, r, rfl, hpc, (Option.some.inj h).symm⟩
      next => cases h
    | step i outcome =>
      obtain ⟨t, ht, rfl⟩ := Option.map_eq_some_iff.mp h
      exact .inr (.inl ⟨i, outcome, t, rfl, ht, rfl⟩)
    | disconnect i =>
      dsimp only at h
      split at h
      next hpc => exact .inr (.inr ⟨i, rfl, hpc, (Option.some.inj h).symm⟩)
      next => cases h
  next => cases h

end Daemon

/-- The daemon with `k` connections. -/
def daemonMachine (k : Nat) : Machine (Daemon k) (DaemonLabel k) where
  init d := d = {}
  next := Daemon.next

end NetShare
