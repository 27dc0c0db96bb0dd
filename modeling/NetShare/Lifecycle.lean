import NetShare.Answers
import NetShare.Connections
import NetShare.Reasoning.Mealy

/-!
# The life of the daemon

Requests one at a time, on whatever connections they come.  To its clients the daemon is an
automaton with three phases, of which the third is that of a start that has failed and left its
flags: there is no way out of it but a kill, and that kill shuts a driver down that has not been
started.  Beside the phase it remembers who owns the vector of names.
-/

namespace NetShare

open Reasoning ConfigurationWorker

/-! ## 1. The daemon -/

/-- What a request makes the daemon do: the lines it sends, and how the process ends if it does. -/
abbrev Served : Type := List Json × Option Halt

/-- The application while the process is there. -/
def daemon : Mealy (Option Application) (Request × Environment) Served where
  next
    | some app, (r, env) =>
      match handle env (some r.line) { app } with
      | (.ok (), w) => some ((w.sent, none), some w.app)
      | (.error halt, w) => some ((w.sent, some halt), none)
    | none, _ => none

/-! ## 2. The automaton -/

inductive DaemonPhase where
  | stopped
  | running
  | startFailed
deriving DecidableEq

/-- The state of the automaton; `namesShared` is set by a start that gets past its config file. -/
structure Life where
  phase : DaemonPhase := .stopped
  namesShared : Bool := false
deriving DecidableEq

/-- The reason that the answer to a start gives. -/
def StartOutcome.crashReason (outcome : StartOutcome) : String :=
  if outcome.configFile.internalConfig?.isSome && outcome.activatedAdapters == 0 then
    "NO_ACTIVATED_ADAPTERS"
  else ""

namespace DaemonPhase

/-- A start from `stopped` that comes back: what it sends, and the phase after it. -/
def afterStart (outcome : StartOutcome) : List Json × DaemonPhase :=
  if outcome.succeeds then
    ([getDriverStateUpdate "startup", getDriverStateResponse "running"],
      if outcome.setConsoleCtrlHandler then .running else .stopped)
  else
    ([getDriverStateUpdate "startup", getDriverStateResponse "crashed" true outcome.crashReason],
      if outcome.leavesFlags then .startFailed else .stopped)

def stop : DaemonPhase → List Json × DaemonPhase
  | .startFailed => ([getDriverStateResponse "startup"], .startFailed)
  | .running => ([getDriverStateResponse "running", getDriverStateResponse "stopped"], .stopped)
  | .stopped => ([getDriverStateResponse "stopped"], .stopped)

/-- A kill ends the process, and a driver that was not started is a fault. -/
def kill : DaemonPhase → List Json × Halt
  | .startFailed =>
    ([getDeamonStateUpdate "worker.startup", getDeamonStateUpdate "worker.running"], .fault)
  | .running =>
    ([getDeamonStateUpdate "worker.running", getDeamonStateUpdate "worker.stopped",
      getDeamonStateResponse "stopped"], .exit)
  | .stopped =>
    ([getDeamonStateUpdate "worker.stopped", getDeamonStateResponse "stopped"], .exit)

end DaemonPhase

namespace Life

/-- A start.  It is a fault if it finds no config file after one that got past it, because the names
that it adds to are those that it then deletes. -/
def start (outcome : StartOutcome) (life : Life) : Served × Option Life :=
  match life.phase with
  | .startFailed => (([getDriverStateResponse "startup"], none), some life)
  | .running => (([getDriverStateResponse "running"], none), some life)
  | .stopped =>
    if outcome.configFile = .missing ∧ life.namesShared = true then
      (([getDriverStateUpdate "startup"], some .fault), none)
    else
      (((DaemonPhase.afterStart outcome).1, none),
        some ⟨(DaemonPhase.afterStart outcome).2, outcome.configFile.internalConfig?.isSome⟩)

/-- The automaton. -/
def automaton : Mealy (Option Life) (Request × Environment) Served where
  next
    | some life, (.run, env) => some (life.start env.start)
    | some life, (.stop, _) =>
      some ((life.phase.stop.1, none), some { life with phase := life.phase.stop.2 })
    | some life, (.kill, _) => some ((life.phase.kill.1, some life.phase.kill.2), none)
    | some life, (.close, _) => some (([closedResponse], none), some life)
    | none, _ => none

/-! ## 3. What stands behind the phases -/

/-- The application in such a phase. -/
structure Describes (life : Life) (app : Application) : Prop where
  exited : app.exited = decide (life.phase = .stopped)
  startingUp : app.startingUp = decide (life.phase = .startFailed)
  namesShared : app.namesShared = life.namesShared
  started : life.phase = .running → app.Started
  noSession : life.phase ≠ .running → ∀ conf, app.conf = .live conf → conf.sessionHandle ≠ .opened

theorem describes_new : Describes {} {} := ⟨rfl, rfl, rfl, nofun, nofun⟩

end Life

theorem Application.initRun_crashReason {outcome : StartOutcome} {app app' : Application}
    {successful : Bool} (h : app.initRun outcome = some (successful, app')) :
    app'.crashReason = outcome.crashReason := by
  unfold StartOutcome.crashReason
  rcases initRun_cases h with ⟨hconf, -, rfl⟩ | ⟨c, hconf, hr⟩
  · rw [hconf]
    rfl
  · rw [show app' = _ from congrArg Prod.snd hr, hconf]
    unfold initRunWith
    by_cases hnone : outcome.activatedAdapters = 0
    · simp [hnone]
    · cases outcome.initializeWintun <;> cases outcome.getAdapterHandle <;>
        cases outcome.wintunStartSession <;> simp [hnone]

namespace Life.Describes

variable {life : Life} {app : Application}

theorem start_succeeds {outcome : StartOutcome} {successful : Bool} {app₁ app' : Application}
    (hinit : app.initRun outcome = some (successful, app₁)) (hsucc : outcome.succeeds = true)
    (hrun : app₁.run outcome = some app') :
    Describes ⟨(DaemonPhase.afterStart outcome).2, outcome.configFile.internalConfig?.isSome⟩
      app' := by
  obtain ⟨app'', hrun', hup, hex, hstarted, hnull, hnames⟩ :=
    Application.run_initRun hinit hsucc
  obtain rfl := Option.some.inj (hrun.symm.trans hrun')
  have hfile : outcome.configFile.internalConfig?.isSome = true := by
    rw [← Application.initRun_namesShared hinit]
    obtain ⟨conf, -, rfl⟩ := Application.initRun_succeeds hinit hsucc
    rfl
  rw [hfile]
  simp only [DaemonPhase.afterStart, hsucc, if_true]
  cases hctrl : outcome.setConsoleCtrlHandler with
  | true =>
    rw [hctrl] at hex
    exact ⟨hex, hup, hnames, fun _ => hstarted hex, fun hne => absurd rfl hne⟩
  | false =>
    rw [hctrl] at hex
    refine ⟨hex, hup, hnames, nofun, fun _ conf hlive => ?_⟩
    rw [hnull hex] at hlive
    contradiction

theorem start_fails (h : life.Describes app) (hphase : life.phase = .stopped)
    {outcome : StartOutcome} {successful : Bool} {app' : Application}
    (hinit : app.initRun outcome = some (successful, app')) (hfail : outcome.succeeds = false) :
    Describes ⟨(DaemonPhase.afterStart outcome).2, outcome.configFile.internalConfig?.isSome⟩
      app' := by
  have hnames := Application.initRun_namesShared hinit
  have hno : ∀ conf, app'.conf = .live conf → conf.sessionHandle ≠ .opened := by
    intro conf hlive
    rcases Application.initRun_noSession hinit hfail with hsame | ⟨conf', hlive', hopen⟩
    · rw [hsame] at hlive
      exact h.noSession (by rw [hphase]; rintro ⟨⟩) conf hlive
    · rw [hlive'] at hlive
      rwa [← Pointer.live.inj hlive]
  simp only [DaemonPhase.afterStart, hfail, Bool.false_eq_true, if_false]
  cases hflags : outcome.leavesFlags with
  | true =>
    obtain ⟨hex, hup⟩ := Application.initRun_leavesFlags hinit hflags
    exact ⟨hex, hup, hnames, nofun, fun _ => hno⟩
  | false =>
    obtain ⟨hex, hup⟩ := Application.initRun_undone hinit hflags hfail
    exact ⟨hex, hup, hnames, nofun, fun _ => hno⟩

/-- What a `shutdown` leaves that comes back from a running driver. -/
theorem shutdown (h : life.Describes app) (hphase : life.phase = .running) {app' : Application}
    (hdown : app.shutdown = some app') : Describes { life with phase := .stopped } app' := by
  have hex : app.exited = false := by rw [h.exited, hphase]; rfl
  have hup : app.startingUp = false := by rw [h.startingUp, hphase]; rfl
  obtain ⟨-, -, -, -, -, -, -, -, -, -, rfl⟩ := Application.shutdown_cases hdown hex
  exact ⟨rfl, hup, h.namesShared, nofun, fun _ _ => nofun⟩

/-! ## 4. Requests -/

/-- The answers to a request are the same, and its results, if there are any, belong together. -/
def Agree (out : Served × Option Application) (out' : Served × Option Life) : Prop :=
  out.1 = out'.1 ∧ Option.Rel (fun app life => life.Describes app) out.2 out'.2

theorem daemon_ok {r : Request} {env : Environment} {w : World}
    (h : handle env (some r.line) { app } = (.ok (), w)) :
    daemon.next (some app) (r, env) = some ((w.sent, none), some w.app) := by
  simp only [daemon, h]

theorem daemon_error {r : Request} {env : Environment} {halt : Halt} {w : World}
    (h : handle env (some r.line) { app } = (.error halt, w)) :
    daemon.next (some app) (r, env) = some ((w.sent, some halt), none) := by
  simp only [daemon, h]

theorem handle_line (r : Request) (env : Environment) (w : World) :
    handle env (some r.line) w = (match r with
      | .run | .stop => parseDriverStatePutMessage env.start r.line
      | .kill => parseDeamonStatePutMessage r.line
      | .close => parseConnectionStatePutMessage r.line).exec w := by
  have hasks : r.line.Asks "Put" r.on := by cases r <;> exact ⟨rfl, rfl⟩
  rw [handle_put_on hasks]
  cases r <;> rfl

theorem run_agrees (h : life.Describes app) (env : Environment) :
    Option.Rel Agree (daemon.next (some app) (.run, env))
      (automaton.next (some life) (.run, env)) := by
  have hdoc : Request.run.line.state? = some "running" := rfl
  have hhandle := handle_line .run env { app }
  have hex := h.exited
  have hup := h.startingUp
  simp only [automaton, start]
  cases hphase : life.phase with
  | startFailed =>
    rw [hphase] at hup
    rw [driverState_startingUp hdoc (.inl rfl) hup] at hhandle
    rw [daemon_ok hhandle]
    exact .some ⟨rfl, .some h⟩
  | running =>
    rw [hphase] at hex hup
    rw [driverState_run_running hdoc hup hex] at hhandle
    rw [daemon_ok hhandle]
    exact .some ⟨rfl, .some h⟩
  | stopped =>
    rw [hphase] at hex hup
    simp only [← h.namesShared]
    cases hinit : app.initRun env.start with
    | none =>
      have hlost : env.start.configFile = .missing ∧ app.namesShared = true :=
        Application.initRun_eq_none_iff.mp hinit
      rw [driverState_run_fault (w := { app }) hdoc hup hex hinit] at hhandle
      rw [daemon_error hhandle, if_pos hlost]
      exact .some ⟨rfl, .none⟩
    | some result =>
      obtain ⟨successful, app₁⟩ := result
      have hkept : ¬(env.start.configFile = .missing ∧ app.namesShared = true) := by
        intro hlost
        rw [Application.initRun_eq_none_iff.mpr hlost] at hinit
        contradiction
      rw [if_neg hkept]
      cases hsucc : env.start.succeeds with
      | true =>
        obtain ⟨app', hrun, hexec, -⟩ :=
          driverState_run_succeeds (w := { app }) hdoc hup hex hinit hsucc
        rw [hexec] at hhandle
        rw [daemon_ok hhandle]
        refine .some ⟨?_, .some (start_succeeds hinit hsucc hrun)⟩
        simp only [DaemonPhase.afterStart, hsucc, if_true]
        rfl
      | false =>
        rw [driverState_run_fails (w := { app }) hdoc hup hex hinit hsucc,
          Application.initRun_crashReason hinit] at hhandle
        rw [daemon_ok hhandle]
        refine .some ⟨?_, .some (h.start_fails hphase hinit hsucc)⟩
        simp only [DaemonPhase.afterStart, hsucc, Bool.false_eq_true, if_false]
        rfl

theorem stop_agrees (h : life.Describes app) (env : Environment) :
    Option.Rel Agree (daemon.next (some app) (.stop, env))
      (automaton.next (some life) (.stop, env)) := by
  have hdoc : Request.stop.line.state? = some "stopped" := rfl
  have hhandle := handle_line .stop env { app }
  have hex := h.exited
  have hup := h.startingUp
  obtain ⟨phase, namesShared⟩ := life
  cases phase with
  | startFailed =>
    rw [driverState_startingUp hdoc (.inr rfl) hup] at hhandle
    rw [daemon_ok hhandle]
    exact .some ⟨rfl, .some h⟩
  | running =>
    have hsome := (Application.shutdown_isSome_iff app).mpr fun _ => h.started rfl
    obtain ⟨app', hdown⟩ := Option.isSome_iff_exists.mp hsome
    rw [driverState_stop_running hdoc hup hex hdown] at hhandle
    rw [daemon_ok hhandle]
    exact .some ⟨rfl, .some (h.shutdown rfl hdown)⟩
  | stopped =>
    rw [driverState_stop_stopped hdoc hup hex] at hhandle
    rw [daemon_ok hhandle]
    exact .some ⟨rfl, .some h⟩

/-- Only a running driver and one that is stopped can be shut down. -/
theorem shutdown_isSome (h : life.Describes app) :
    app.shutdown.isSome = decide (life.phase ≠ .startFailed) := by
  apply Bool.eq_iff_iff.mpr
  rw [Application.shutdown_isSome_iff, decide_eq_true_iff, h.exited]
  cases hphase : life.phase with
  | stopped => simp
  | running => exact ⟨fun _ => by rintro ⟨⟩, fun _ _ => h.started hphase⟩
  | startFailed =>
    refine ⟨fun hstarted => ?_, fun hne => absurd rfl hne⟩
    obtain ⟨conf, hlive, hhandles⟩ := (hstarted rfl).conf
    exact absurd hhandles.sessionHandle (h.noSession (by rw [hphase]; rintro ⟨⟩) conf hlive)

-- The process ends in any case.
theorem kill_agrees (h : life.Describes app) (env : Environment) :
    Option.Rel Agree (daemon.next (some app) (.kill, env))
      (automaton.next (some life) (.kill, env)) := by
  have hdoc : Request.kill.line.state? = some "stopped" := rfl
  have hhandle := handle_line .kill env { app }
  have hex := h.exited
  have hup := h.startingUp
  have hsome := h.shutdown_isSome
  cases hdown : app.shutdown with
  | some app' =>
    rw [deamonState_exit hdoc hdown] at hhandle
    rw [daemon_error hhandle]
    rw [hdown] at hsome
    refine .some ⟨?_, .none⟩
    obtain ⟨phase, namesShared⟩ := life
    cases phase with
    | startFailed => contradiction
    | running | stopped => simp [DaemonPhase.kill, deamonUpdates, hex, hup]
  | none =>
    rw [deamonState_fault hdoc hdown] at hhandle
    rw [daemon_error hhandle]
    rw [hdown] at hsome
    refine .some ⟨?_, .none⟩
    obtain ⟨phase, namesShared⟩ := life
    cases phase with
    | startFailed => simp [DaemonPhase.kill, hup]
    | running | stopped => contradiction

theorem simulates :
    daemon.Simulates automaton (Option.Rel fun app life => life.Describes app) (· = ·) := by
  rintro _ _ ⟨r, env⟩ (h | -)
  · cases r with
    | run => exact h.run_agrees env
    | stop => exact h.stop_agrees env
    | kill => exact h.kill_agrees env
    | close => exact .some ⟨rfl, .some h⟩
  · exact .none

end Life.Describes

/-- **The life of the daemon.**  Whatever requests come, one at a time, and however the starts end,
the daemon sends what the automaton says, request by request, and ends when it does and how; its
flags are those of the phase. -/
theorem daemon_fits_automaton (requests : List (Request × Environment)) :
    Option.Rel
      (fun served said => served.1 = said.1 ∧
        Option.Rel (fun app life => Life.Describes life app) served.2 said.2)
      (daemon.run (some {}) requests) (Life.automaton.run (some {}) requests) := by
  have hrun := Life.Describes.simulates.run (.some Life.describes_new) requests
  rwa [List.forall₂_eq_eq_eq] at hrun

end NetShare
