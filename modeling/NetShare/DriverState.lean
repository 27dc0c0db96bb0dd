import NetShare.ConfigurationWorker
import NetShare.Reasoning.Machine

/-!
# The driver state that is reported

What a `driver.state` Put does, case by case, and what follows for a daemon that handles such
requests one after the other: whether its flags are what its last response says.
-/

namespace NetShare

open Reasoning ConfigurationWorker

/-! ## 1. Lines -/

namespace Json

def isResponse (line : Json) : Bool := line.stringMember? "type" == some "Response"

def isUpdate (line : Json) : Bool := line.stringMember? "type" == some "Update"

@[simp] theorem isUpdate_getDriverStateUpdate (state : String) :
    (getDriverStateUpdate state).isUpdate = true := rfl

@[simp] theorem isUpdate_getDeamonStateUpdate (state : String) :
    (getDeamonStateUpdate state).isUpdate = true := rfl

end Json

@[simp] theorem World.send_app (w : World) (line : Json) : (w.send line).app = w.app := rfl

@[simp] theorem World.send_sent (w : World) (line : Json) :
    (w.send line).sent = w.sent ++ [line] := rfl

/-! ## 2. The cases of a `driver.state` Put -/

section

variable {doc : Json} {w : World}

/-- While a start goes on, or seems to, every request is answered with "startup". -/
theorem driverState_startingUp {state : String} (h : doc.state? = some state)
    (hstate : state = "running" ∨ state = "stopped") (hup : w.app.startingUp = true)
    (outcome : StartOutcome) :
    (parseDriverStatePutMessage outcome doc).exec w =
      (.ok (), w.send (getDriverStateResponse "startup")) := by
  rw [parseDriverStatePutMessage, withState_of_state h]
  rcases hstate with rfl | rfl
  · rw [if_pos rfl]
    simp only [HaltingM.exec_bind, exec_getApplication, Application.isStartingUp, hup, if_true,
      exec_sendLine]
  · rw [if_neg (by decide), if_pos rfl]
    simp only [HaltingM.exec_bind, exec_getApplication, Application.isStartingUp, hup, if_true,
      exec_sendLine]

-- A driver that runs is not started again.
theorem driverState_run_running (h : doc.state? = some "running")
    (hup : w.app.startingUp = false) (hex : w.app.exited = false) (outcome : StartOutcome) :
    (parseDriverStatePutMessage outcome doc).exec w =
      (.ok (), w.send (getDriverStateResponse "running")) := by
  rw [parseDriverStatePutMessage, withState_of_state h, if_pos rfl]
  simp only [HaltingM.exec_bind, exec_getApplication, Application.isStartingUp, hup,
    Bool.false_eq_true, if_false, Application.isRunning, hex, Bool.not_false, if_true,
    exec_sendLine]

/-- A start that succeeds is answered with "running", whatever `run` has made of it. -/
theorem driverState_run_succeeds (h : doc.state? = some "running")
    (hup : w.app.startingUp = false) (hex : w.app.exited = true) {outcome : StartOutcome}
    {successful : Bool} {app₁ : Application}
    (hinit : w.app.initRun outcome = some (successful, app₁)) (hsucc : outcome.succeeds = true) :
    ∃ app', app₁.run outcome = some app' ∧
      (parseDriverStatePutMessage outcome doc).exec w =
        (.ok (), { (w.send (getDriverStateUpdate "startup")).send
          (getDriverStateResponse "running") with app := app' }) ∧
      app'.startingUp = false ∧ app'.exited = !outcome.setConsoleCtrlHandler ∧
      (app'.exited = false → app'.Started) ∧ (app'.exited = true → app'.conf = .null) ∧
      app'.namesShared = true := by
  obtain ⟨app', hrun, hspec⟩ := Application.run_initRun hinit hsucc
  refine ⟨app', hrun, ?_, hspec⟩
  have hsuccessful : successful = true := (Application.initRun_fst hinit).trans hsucc
  have hfirst : (callInitRun outcome).exec (w.send (getDriverStateUpdate "startup")) =
      (.ok successful, { w.send (getDriverStateUpdate "startup") with app := app₁ }) :=
    exec_callInitRun hinit
  have hcall : (callRun outcome).exec
      { w.send (getDriverStateUpdate "startup") with app := app₁ } =
        (.ok (), { w.send (getDriverStateUpdate "startup") with app := app' }) :=
    exec_callApplication hrun
  rw [parseDriverStatePutMessage, withState_of_state h, if_pos rfl]
  simp only [HaltingM.exec_bind, exec_getApplication, Application.isStartingUp, hup,
    Bool.false_eq_true, if_false, Application.isRunning, hex, Bool.not_true, exec_sendLine,
    hfirst, hsuccessful, if_true, hcall]
  rfl

/-- A start that fails is answered with "crashed". -/
theorem driverState_run_fails (h : doc.state? = some "running")
    (hup : w.app.startingUp = false) (hex : w.app.exited = true) {outcome : StartOutcome}
    {successful : Bool} {app₁ : Application}
    (hinit : w.app.initRun outcome = some (successful, app₁)) (hfail : outcome.succeeds = false) :
    (parseDriverStatePutMessage outcome doc).exec w =
      (.ok (), { (w.send (getDriverStateUpdate "startup")).send
          (getDriverStateResponse "crashed" true app₁.crashReason) with app := app₁ }) := by
  have hsuccessful : successful = false := (Application.initRun_fst hinit).trans hfail
  have hfirst : (callInitRun outcome).exec (w.send (getDriverStateUpdate "startup")) =
      (.ok successful, { w.send (getDriverStateUpdate "startup") with app := app₁ }) :=
    exec_callInitRun hinit
  rw [parseDriverStatePutMessage, withState_of_state h, if_pos rfl]
  simp only [HaltingM.exec_bind, exec_getApplication, Application.isStartingUp, hup,
    Bool.false_eq_true, if_false, Application.isRunning, hex, Bool.not_true, exec_sendLine,
    hfirst, hsuccessful, Application.getCrashReason]
  rfl

/-- A start that uses the names it has deleted has sent its update. -/
theorem driverState_run_fault (h : doc.state? = some "running")
    (hup : w.app.startingUp = false) (hex : w.app.exited = true) {outcome : StartOutcome}
    (hinit : w.app.initRun outcome = none) :
    (parseDriverStatePutMessage outcome doc).exec w =
      (.error .fault, w.send (getDriverStateUpdate "startup")) := by
  have hcall : (callInitRun outcome).exec (w.send (getDriverStateUpdate "startup")) =
      (.error .fault, w.send (getDriverStateUpdate "startup")) :=
    exec_callInitRun_none hinit
  rw [parseDriverStatePutMessage, withState_of_state h, if_pos rfl]
  simp only [HaltingM.exec_bind, exec_getApplication, Application.isStartingUp, hup,
    Bool.false_eq_true, if_false, Application.isRunning, hex, Bool.not_true, exec_sendLine, hcall]

-- A driver that does not run is not stopped again.
theorem driverState_stop_stopped (h : doc.state? = some "stopped")
    (hup : w.app.startingUp = false) (hex : w.app.exited = true) (outcome : StartOutcome) :
    (parseDriverStatePutMessage outcome doc).exec w =
      (.ok (), w.send (getDriverStateResponse "stopped")) := by
  rw [parseDriverStatePutMessage, withState_of_state h, if_neg (by decide), if_pos rfl]
  simp only [HaltingM.exec_bind, exec_getApplication, Application.isStartingUp, hup,
    Bool.false_eq_true, if_false, Application.isRunning, hex, Bool.not_true, exec_sendLine]

/-- Stopping a running driver is answered twice, before and after the `shutdown`. -/
theorem driverState_stop_running (h : doc.state? = some "stopped")
    (hup : w.app.startingUp = false) (hex : w.app.exited = false) {app' : Application}
    (hdown : w.app.shutdown = some app') (outcome : StartOutcome) :
    (parseDriverStatePutMessage outcome doc).exec w =
      (.ok (), { (w.send (getDriverStateResponse "running")).send
        (getDriverStateResponse "stopped") with app := app' }) := by
  have hcall : callShutdown.exec (w.send (getDriverStateResponse "running")) =
      (.ok (), { w.send (getDriverStateResponse "running") with app := app' }) :=
    exec_callApplication hdown
  rw [parseDriverStatePutMessage, withState_of_state h, if_neg (by decide), if_pos rfl]
  simp only [HaltingM.exec_bind, exec_getApplication, Application.isStartingUp, hup,
    Bool.false_eq_true, if_false, Application.isRunning, hex, Bool.not_false, if_true,
    exec_sendLine, hcall, (Application.shutdown_flags hdown).1, Bool.not_true]
  rfl

/-- If the `shutdown` uses a pointer that is not there, one answer has already been sent. -/
theorem driverState_stop_fault (h : doc.state? = some "stopped")
    (hup : w.app.startingUp = false) (hex : w.app.exited = false)
    (hdown : w.app.shutdown = none) (outcome : StartOutcome) :
    (parseDriverStatePutMessage outcome doc).exec w =
      (.error .fault, w.send (getDriverStateResponse "running")) := by
  have hcall : callShutdown.exec (w.send (getDriverStateResponse "running")) =
      (.error .fault, w.send (getDriverStateResponse "running")) :=
    exec_callApplication_none hdown
  rw [parseDriverStatePutMessage, withState_of_state h, if_neg (by decide), if_pos rfl]
  simp only [HaltingM.exec_bind, exec_getApplication, Application.isStartingUp, hup,
    Bool.false_eq_true, if_false, Application.isRunning, hex, Bool.not_false, if_true,
    exec_sendLine, hcall]

end

/-! ## 3. A daemon that handles one request after the other -/

inductive DriverState where
  | running
  | stopped
deriving DecidableEq

def DriverState.name : DriverState → String
  | .running => "running"
  | .stopped => "stopped"

/-- The `driver.state` Put that asks for a state. -/
def DriverState.put (state : DriverState) : Json :=
  .object [("type", .string "Put"), ("on", .string "driver.state"),
    ("data", .object [("state", .string state.name)])]

@[simp] theorem DriverState.state?_put (state : DriverState) :
    state.put.state? = some state.name := by
  cases state <;> rfl

/-- The dispatch takes such a request to its handler. -/
theorem handle_put (env : Environment) (state : DriverState) (w : World) :
    handle env (some state.put) w = (parseDriverStatePutMessage env.start state.put).exec w := by
  have hasks : state.put.Asks "Put" "driver.state" := ⟨rfl, rfl⟩
  rw [handle_put_on hasks, if_pos rfl]

/-- One step handles one request; a request whose handling halts has no step. -/
def driverStateMachine : Machine World (DriverState × Environment) where
  init w := w = {}
  next w a :=
    match handle a.2 (some a.1.put) w with
    | (.ok (), w') => some w'
    | (.error _, _) => none

/-- The state in the last response sent. -/
def World.lastReported (w : World) : Option String :=
  (w.sent.filter Json.isResponse).getLast?.bind Json.state?

/-- The flags are what a reported state says. -/
structure Application.Agrees (app : Application) (state : String) : Prop where
  running : state = "running" → app.exited = false ∧ app.startingUp = false
  stopped : state = "stopped" ∨ state = "crashed" → app.exited = true ∧ app.startingUp = false
  startup : state = "startup" → app.startingUp = true

def World.Truthful (w : World) : Prop :=
  ∀ state, w.lastReported = some state → w.app.Agrees state

/-- A start that the request attempts neither fails in reading the config file or for want of an
activated adapter, nor gets as far as to fail in setting the control handler. -/
def StartKeepsFlags (w : World) (a : DriverState × Environment) : Prop :=
  a.1 = .running → w.app.startingUp = false → w.app.exited = true →
    a.2.start.leavesFlags = false ∧
      (a.2.start.succeeds = true → a.2.start.setConsoleCtrlHandler = true)

/-- The request begins a start that uses the names it has deleted; it is not handled to its end. -/
def StartLosesNames (w : World) (a : DriverState × Environment) : Prop :=
  a.1 = .running ∧ w.app.startingUp = false ∧ w.app.exited = true ∧ w.app.LosesNames a.2.start

-- Updates do not count, so the last response decides.
theorem World.lastReported_send {w : World} {line : Json} (h : line.isResponse = true) :
    (w.send line).lastReported = line.state? := by
  rw [World.lastReported, World.send_sent, List.filter_append]
  simp [h]

/-- After a response with this state the world is truthful if the flags are what it says. -/
theorem World.truthful_iff {w : World} {app : Application} {line : Json} {state : String}
    (h : line.isResponse = true) (hs : line.state? = some state) :
    ({ w.send line with app } : World).Truthful ↔ app.Agrees state := by
  have hlast : ({ w.send line with app } : World).lastReported = some state :=
    (World.lastReported_send h).trans hs
  simp only [World.Truthful, hlast, Option.some.injEq, forall_eq']

/-! ## 4. When the report is true -/

/-- What holds between requests: no start seems to go on, and a driver that counts as running has
been started. -/
structure World.Settled (w : World) : Prop where
  startingUp : w.app.startingUp = false
  started : w.app.exited = false → w.app.Started
  truthful : w.Truthful

-- For each state that is reported, only the condition on that state is left.
theorem agrees_running_iff (app : Application) :
    app.Agrees "running" ↔ app.exited = false ∧ app.startingUp = false := by
  constructor
  · exact fun h => h.running rfl
  · exact fun h => ⟨fun _ => h, fun hs => absurd hs (by decide), fun hs => absurd hs (by decide)⟩

theorem agrees_stopped_iff (app : Application) :
    app.Agrees "stopped" ↔ app.exited = true ∧ app.startingUp = false := by
  constructor
  · exact fun h => h.stopped (.inl rfl)
  · exact fun h => ⟨fun hs => absurd hs (by decide), fun _ => h, fun hs => absurd hs (by decide)⟩

theorem agrees_crashed_iff (app : Application) :
    app.Agrees "crashed" ↔ app.exited = true ∧ app.startingUp = false := by
  constructor
  · exact fun h => h.stopped (.inr rfl)
  · exact fun h => ⟨fun hs => absurd hs (by decide), fun _ => h, fun hs => absurd hs (by decide)⟩

/-- A request is handled, leaves a truthful world exactly if its start keeps the flags, and then a
settled one. -/
def ReportedAfter (w : World) (a : DriverState × Environment) : Prop :=
  ∃ w', driverStateMachine.next w a = some w' ∧ (w'.Truthful ↔ StartKeepsFlags w a) ∧
    (StartKeepsFlags w a → w'.Settled)

theorem driverState_next {w w' : World} {state : DriverState} {env : Environment}
    (h : (parseDriverStatePutMessage env.start state.put).exec w = (.ok (), w')) :
    driverStateMachine.next w (state, env) = some w' := by
  simp only [driverStateMachine, handle_put, h]

namespace World.Settled

variable {w : World} {env : Environment} {successful : Bool} {app₁ : Application}

-- Flags that are settled and agree with the report are all that the next request needs.
theorem reportedAfter {a : DriverState × Environment} {w' : World} {state : String}
    (hnext : driverStateMachine.next w a = some w') (htruthful : w'.Truthful ↔ w'.app.Agrees state)
    (hiff : w'.app.Agrees state ↔ StartKeepsFlags w a)
    (hsettled : w'.app.Agrees state →
      w'.app.startingUp = false ∧ (w'.app.exited = false → w'.app.Started)) :
    ReportedAfter w a := by
  refine ⟨w', hnext, htruthful.trans hiff, fun hcond => ?_⟩
  obtain ⟨hup, hstarted⟩ := hsettled (hiff.mpr hcond)
  exact ⟨hup, hstarted, htruthful.mpr (hiff.mpr hcond)⟩

/-- After "stopped" or "crashed" there is no driver that could have been started. -/
theorem of_exited {app : Application} (h : app.exited = true ∧ app.startingUp = false) :
    app.startingUp = false ∧ (app.exited = false → app.Started) := by
  refine ⟨h.2, fun hrun => ?_⟩
  rw [h.1] at hrun
  contradiction

/-- A start that succeeds. -/
theorem run_succeeds (h : w.Settled) (hex : w.app.exited = true)
    (hinit : w.app.initRun env.start = some (successful, app₁))
    (hsucc : env.start.succeeds = true) : ReportedAfter w (.running, env) := by
  obtain ⟨app', -, hexec, hup', hex', hstarted, -⟩ :=
    driverState_run_succeeds (DriverState.state?_put .running) h.startingUp hex hinit hsucc
  have hkeeps : env.start.leavesFlags = false := by
    unfold StartOutcome.succeeds at hsucc
    cases hl : env.start.leavesFlags with
    | false => rfl
    | true => simp [hl] at hsucc
  refine reportedAfter (driverState_next hexec) (World.truthful_iff rfl rfl) ?_
    fun _ => ⟨hup', hstarted⟩
  show app'.Agrees "running" ↔ StartKeepsFlags w (.running, env)
  rw [agrees_running_iff, hex', hup']
  constructor
  · rintro ⟨hctrl, -⟩ - - -
    exact ⟨hkeeps, fun _ => by simpa using hctrl⟩
  · intro hcond
    exact ⟨by simpa using (hcond rfl h.startingUp hex).2 hsucc, rfl⟩

/-- A start that fails, at an exit that undoes the flags or at one that leaves them. -/
theorem run_fails (h : w.Settled) (hex : w.app.exited = true)
    (hinit : w.app.initRun env.start = some (successful, app₁))
    (hfail : env.start.succeeds = false) : ReportedAfter w (.running, env) := by
  have hexec := driverState_run_fails (DriverState.state?_put .running) h.startingUp hex hinit hfail
  refine reportedAfter (driverState_next hexec) (World.truthful_iff rfl rfl) ?_
    fun hagrees => of_exited ((agrees_crashed_iff _).mp hagrees)
  show app₁.Agrees "crashed" ↔ StartKeepsFlags w (.running, env)
  rw [agrees_crashed_iff]
  cases hl : env.start.leavesFlags with
  | true =>
    obtain ⟨hex', -⟩ := Application.initRun_leavesFlags hinit hl
    refine iff_of_false (fun hc => ?_) fun hcond => ?_
    · exact Bool.false_ne_true (hex'.symm.trans hc.1)
    · have hkeeps := (hcond rfl h.startingUp hex).1
      rw [hl] at hkeeps
      contradiction
  | false =>
    apply iff_of_true (Application.initRun_undone hinit hl hfail)
    intro _ _ _
    exact ⟨hl, fun hs => by rw [hfail] at hs; contradiction⟩

theorem stop (h : w.Settled) : ReportedAfter w (.stopped, env) := by
  have hcond : StartKeepsFlags w (.stopped, env) := fun heq => nomatch heq
  cases hex : w.app.exited with
  | true =>
    have hagrees : w.app.Agrees "stopped" := (agrees_stopped_iff _).mpr ⟨hex, h.startingUp⟩
    exact reportedAfter
      (driverState_next (driverState_stop_stopped rfl h.startingUp hex env.start))
      (World.truthful_iff rfl rfl) (iff_of_true hagrees hcond) fun _ => ⟨h.startingUp, h.started⟩
  | false =>
    have hsome := (Application.shutdown_isSome_iff w.app).mpr fun _ => h.started hex
    obtain ⟨app', hdown⟩ := Option.isSome_iff_exists.mp hsome
    obtain ⟨hex', hup'⟩ := Application.shutdown_flags hdown
    have hstopped : app'.exited = true ∧ app'.startingUp = false := ⟨hex', hup'.trans h.startingUp⟩
    exact reportedAfter
      (driverState_next (driverState_stop_running rfl h.startingUp hex hdown env.start))
      (World.truthful_iff rfl rfl) (iff_of_true ((agrees_stopped_iff _).mpr hstopped) hcond)
      fun _ => of_exited hstopped

/-- A request in a settled world is handled unless its start uses deleted names. -/
theorem step (h : w.Settled) (a : DriverState × Environment) :
    (StartLosesNames w a ∧ driverStateMachine.next w a = none) ∨
      (¬ StartLosesNames w a ∧ ReportedAfter w a) := by
  obtain ⟨state, env⟩ := a
  cases state with
  | stopped =>
    have hnot : ¬ StartLosesNames w (.stopped, env) := fun h' => nomatch h'.1
    exact .inr ⟨hnot, h.stop⟩
  | running =>
    cases hex : w.app.exited with
    | false =>
      have hcond : StartKeepsFlags w (.running, env) := fun _ _ h' =>
        absurd (hex.symm.trans h') Bool.false_ne_true
      have hagrees : w.app.Agrees "running" := (agrees_running_iff _).mpr ⟨hex, h.startingUp⟩
      refine .inr ⟨fun h' => Bool.false_ne_true (hex.symm.trans h'.2.2.1), ?_⟩
      exact reportedAfter
        (driverState_next (driverState_run_running rfl h.startingUp hex env.start))
        (World.truthful_iff rfl rfl) (iff_of_true hagrees hcond) fun _ => ⟨h.startingUp, h.started⟩
    | true =>
      by_cases hlost : w.app.LosesNames env.start
      · have hexec := driverState_run_fault (DriverState.state?_put .running) h.startingUp hex
          (Application.initRun_eq_none_iff.mpr hlost)
        refine .inl ⟨⟨rfl, h.startingUp, hex, hlost⟩, ?_⟩
        simp only [driverStateMachine, handle_put, hexec]
      · refine .inr ⟨fun h' => hlost h'.2.2.2, ?_⟩
        obtain ⟨successful, app₁, hinit⟩ := Application.exists_initRun hlost
        cases hsucc : env.start.succeeds with
        | true => exact h.run_succeeds hex hinit hsucc
        | false => exact h.run_fails hex hinit hsucc

end World.Settled

-- The condition is needed only where a start begins; elsewhere the flags are settled already.
theorem settled_of_reach {w : World} (h : driverStateMachine.ReachWhile StartKeepsFlags w) :
    w.Settled := by
  refine h.invariant ?_ ?_
  · rintro _ rfl
    refine ⟨rfl, fun hex => ?_, fun state hstate => ?_⟩
    · contradiction
    · contradiction
  · intro w a w' hw hcond hn
    rcases hw.step a with ⟨-, hnone⟩ | ⟨-, w'', hn', -, hkept⟩
    · rw [hn] at hnone
      contradiction
    · rw [hn, Option.some.injEq] at hn'
      subst hn'
      exact hkept hcond

/-- **The reported state is the real one as long as no start loses a flag**, and the first start
that does makes the report wrong.  Every request is handled but for one whose start uses deleted
names. -/
theorem driverState_truthful {w : World}
    (h : driverStateMachine.ReachWhile StartKeepsFlags w) :
    w.Truthful ∧ ∀ a, (driverStateMachine.next w a = none ↔ StartLosesNames w a) ∧
      ∀ w', driverStateMachine.next w a = some w' → (w'.Truthful ↔ StartKeepsFlags w a) := by
  have hsettled := settled_of_reach h
  refine ⟨hsettled.truthful, fun a => ?_⟩
  rcases hsettled.step a with ⟨hlost, hnone⟩ | ⟨hnot, w', hn, hiff, -⟩
  · rw [hnone]
    exact ⟨iff_of_true rfl hlost, fun w' hn => by contradiction⟩
  · rw [hn]
    refine ⟨iff_of_false (Option.some_ne_none w') hnot, fun w'' hn' => ?_⟩
    rwa [← Option.some.inj hn']

/-- Reading the config file throws, and the driver is said to have crashed while its flags say that
it is starting up. -/
theorem driverState_configThrows :
    ¬ ∀ w, driverStateMachine.Reach w → w.Truthful := by
  intro hclaim
  let a : DriverState × Environment :=
    (.running, environmentOf { goodStart with configFile := .throws })
  have hrun : driverStateMachine.run {} [a] =
      some ((driverStateMachine.run {} [a]).get (by decide)) := (Option.some_get _).symm
  have hcrashed := hclaim _ (Machine.reach_of_run rfl hrun) "crashed" (by decide)
  exact absurd (hcrashed.stopped (.inr rfl)).1 (by decide)

/-- A start and a stop, both as reported. -/
def startedAndStopped : List (DriverState × Environment) :=
  [(.running, environmentOf goodStart), (.stopped, environmentOf goodStart)]

theorem driverState_truthful_startedAndStopped :
    ((driverStateMachine.run {} startedAndStopped).get (by decide)).lastReported =
        some "stopped" ∧
      ((driverStateMachine.run {} startedAndStopped).get (by decide)).Truthful ∧
      ∀ a, (driverStateMachine.next
          ((driverStateMachine.run {} startedAndStopped).get (by decide)) a = none ↔
            StartLosesNames ((driverStateMachine.run {} startedAndStopped).get (by decide)) a) ∧
        ∀ w', driverStateMachine.next
            ((driverStateMachine.run {} startedAndStopped).get (by decide)) a = some w' →
          (w'.Truthful ↔
            StartKeepsFlags ((driverStateMachine.run {} startedAndStopped).get (by decide)) a) := by
  have hok : ∀ w a, a ∈ startedAndStopped → StartKeepsFlags w a := by
    intro w a ha
    simp only [startedAndStopped, List.mem_cons, List.not_mem_nil, or_false] at ha
    rcases ha with rfl | rfl
    · exact fun _ _ _ => ⟨by decide, fun _ => rfl⟩
    · exact fun heq => nomatch heq
  exact ⟨by decide, driverState_truthful
    ⟨{}, rfl, Machine.leads_of_run hok (Option.some_get (by decide)).symm⟩⟩

end NetShare
