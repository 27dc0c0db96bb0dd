import NetShare.Application
import NetShare.NetworkAdapters

/-!
# The sockets of a driver

`Application::initRun`, `run` and `shutdown` with the adapters they find and the sockets they open
and close.  What they do to the fields of `Application` is what they do without.
-/

namespace NetShare

open NetworkAdapterList

/-! ## 1. Data -/

/-- `udpconfigs` are the elements of the vector to which the field of `Application` points. -/
structure Driver where
  app : Application
  adapterList : NetworkAdapterList
  udpconfigs : List UDPWorkerConfig
  winsock : Winsock

/-- What the steps of one start yield; `adapters` are those that `init` gets from the system and
`initSocket` the outcomes for the activated ones, in their order. -/
structure Start where
  configFile : ConfigFileOutcome
  adapters : List NetworkAdapter
  initializeWintun : Bool
  initSocket : Nat → InitSocketOutcome
  getAdapterHandle : Bool
  wintunStartSession : Bool
  setConsoleCtrlHandler : Bool

namespace Start

/-- The adapters of a start with these names configured. -/
def adapterList (start : Start) (names : List (List UInt8)) : NetworkAdapterList :=
  deactiveEverythingBut names (init start.adapters)

/-- How many adapters are activated in a start that gets so far. -/
def activatedAdapters (start : Start) : Nat :=
  match start.configFile.internalConfig? with
  | none => 0
  | some internalConfig => activated (start.adapterList internalConfig.names)

/-- The start as `Application` by itself sees it. -/
def outcome (start : Start) : StartOutcome where
  configFile := start.configFile
  activatedAdapters := start.activatedAdapters
  initializeWintun := start.initializeWintun
  getAdapterHandle := start.getAdapterHandle
  wintunStartSession := start.wintunStartSession
  setConsoleCtrlHandler := start.setConsoleCtrlHandler

end Start

namespace Driver

/-! ## 2. Starting and stopping -/

/-- `initRun` with its sockets.  That a start may use deleted names is left to
`Application.initRun`; here it goes on. -/
def initRun (start : Start) (d : Driver) : Bool × Driver :=
  let d := { d with app := { d.app with
    crashed := false, crashReason := "", exited := false, startingUp := true } }
  match start.configFile.internalConfig? with
  | none => (false, { d with app := { d.app with namesShared := false } })
  | some internalConfig =>
    let conf := Config.ofAppConfig internalConfig
    let d := { d with
      app := { d.app with namesShared := true }
      adapterList := start.adapterList internalConfig.names }
    if !hasActivatedNetworkAdapters d.adapterList then
      (false, { d with app := { d.app with
        conf := .live { conf with isRunning := some false }
        crashed := true
        crashReason := "NO_ACTIVATED_ADAPTERS" } })
    else if !start.initializeWintun then
      (false, { d with app := { d.app with
        conf := .live conf, exited := true, startingUp := false } })
    else
      let conf := { conf with quitEvent := .opened }
      let (udpconfigs, winsock) := generateUDPConfigs start.initSocket d.adapterList d.winsock
      let d := { d with
        app := { d.app with
          udpconfigs := .live udpconfigs.length
          udpconfigsReferences := .live udpconfigs.length }
        udpconfigs
        winsock }
      if !start.getAdapterHandle then
        (false, { d with app := { d.app with
          conf := .live { conf with adapterHandle := .null }
          exited := true
          startingUp := false } })
      else if !start.wintunStartSession then
        (false, { d with app := { d.app with
          conf := .live { conf with adapterHandle := .closed, sessionHandle := .null }
          exited := true
          startingUp := false } })
      else
        (true, { d with app := { d.app with
          conf := .live { conf with adapterHandle := .opened, sessionHandle := .opened } } })

/-- `shutdown`. -/
def shutdown (d : Driver) : Option Driver :=
  if d.app.exited then some d
  else
    d.app.shutdown.map fun app =>
      { d with app, winsock := shutdownWSA (closeSockets d.udpconfigs d.winsock) }

/-- `run`. -/
def run (start : Start) (d : Driver) : Option Driver :=
  match d.app.conf.target?, d.app.udpconfigs.target?, d.app.udpconfigsReferences.target? with
  | some conf, some size, some references =>
    if size ≤ references then
      let d := { d with app := { d.app with
        conf := .live { conf with isRunning := some true }
        numberOfWorkers := size + 2
        Workers := .live (size + 2) } }
      let installed := if start.setConsoleCtrlHandler then some d else d.shutdown
      installed.map fun d => { d with app := { d.app with
        exitHandlers := d.app.exitHandlers + 1, startingUp := false } }
    else none
  | _, _, _ => none

/-- A start that reaches `run`, and the `shutdown` after it. -/
def cycle (start : Start) (d : Driver) : Option Driver :=
  ((d.initRun start).2.run start).bind shutdown

/-! ## 3. The fields of `Application` -/

-- The vectors have an element for each worker of an activated adapter.
theorem generateUDPConfigs_length (start : Start) (names : List (List UInt8)) (w : Winsock) :
    (generateUDPConfigs start.initSocket (start.adapterList names) w).1.length =
      2 * activated (start.adapterList names) :=
  (generateUDPConfigsFrom_opens _ _ _ _ w).1

/-- From `adapterNames.reset` on `initRun` does to the fields of `Application` what it does without
sockets. -/
theorem initRun_initRunWith (start : Start) (d : Driver) {internalConfig : AppConfig}
    (hconf : start.configFile.internalConfig? = some internalConfig) :
    ((d.initRun start).1, (d.initRun start).2.app) =
      { d.app with
        crashed := false, crashReason := "", exited := false, startingUp := true }.initRunWith
          internalConfig start.outcome := by
  unfold initRun Application.initRunWith
  have hactivated : start.outcome.activatedAdapters =
      activated (start.adapterList internalConfig.names) := by
    simp only [Start.outcome, Start.activatedAdapters, hconf]
  simp only [hconf, hasActivatedNetworkAdapters_eq, hactivated, generateUDPConfigs_length]
  by_cases hnone : activated (start.adapterList internalConfig.names) = 0
  · simp only [hnone, decide_true, Bool.not_true, Bool.not_false, if_true]
  · simp only [hnone, decide_false, Bool.not_false, Bool.not_true, Bool.false_eq_true, if_false,
      Start.outcome]
    obtain ⟨_, _, initializeWintun, _, getAdapterHandle, wintunStartSession, _⟩ := start
    cases initializeWintun <;> cases getAdapterHandle <;> cases wintunStartSession <;> rfl

-- A start without sockets may lose its names, so they are taken as not shared first.
theorem initRun_app_unshared (start : Start) (d : Driver) :
    { d.app with namesShared := false }.initRun start.outcome =
      some ((d.initRun start).1, (d.initRun start).2.app) := by
  have hkept : ¬ { d.app with namesShared := false }.LosesNames start.outcome := by
    rintro ⟨-, hshared⟩
    contradiction
  obtain ⟨successful, app', hinit⟩ := Application.exists_initRun hkept
  rw [hinit]
  rcases Application.initRun_cases hinit with ⟨hconf, rfl, rfl⟩ | ⟨internalConfig, hconf, hr⟩
  · have hnone : start.configFile.internalConfig? = none := hconf
    simp only [initRun, hnone]
  · rw [initRun_initRunWith start d hconf, hr]
    rfl

/-- `initRun` does to the fields of `Application` what it does without sockets. -/
theorem initRun_app (start : Start) (d : Driver) (h : ¬ d.app.LosesNames start.outcome) :
    d.app.initRun start.outcome = some ((d.initRun start).1, (d.initRun start).2.app) := by
  rw [← initRun_app_unshared]
  unfold Application.initRun
  cases hfile : start.outcome.configFile with
  | missing =>
    have hshared : d.app.namesShared = false := Bool.eq_false_iff.mpr fun hs => h ⟨hfile, hs⟩
    simp only [hshared]
  | read internalConfig => rfl
  | throws => rfl

theorem shutdown_app (d : Driver) : d.shutdown.map Driver.app = d.app.shutdown := by
  unfold shutdown
  split
  next hexited => rw [Application.shutdown_of_exited hexited, Option.map_some]
  next => rw [Option.map_map, Function.comp_def, Option.map_id']

theorem run_app (start : Start) (d : Driver) :
    (d.run start).map Driver.app = d.app.run start.outcome := by
  unfold run Application.run
  cases d.app.conf.target? with
  | none => rfl
  | some conf =>
    cases d.app.udpconfigs.target? with
    | none => rfl
    | some size =>
      cases d.app.udpconfigsReferences.target? with
      | none => rfl
      | some references =>
        simp only
        split
        next =>
          cases hctrl : start.setConsoleCtrlHandler with
          | true => simp only [Start.outcome, hctrl, if_true, Option.map_some]
          | false =>
            have hshutdown := congrArg (Option.map fun app : Application =>
                { app with exitHandlers := app.exitHandlers + 1, startingUp := false })
              (shutdown_app { d with app := { d.app with
                conf := .live { conf with isRunning := some true }
                numberOfWorkers := size + 2
                Workers := .live (size + 2) } })
            simp only [Start.outcome, hctrl, Bool.false_eq_true, if_false]
            rw [Option.map_map] at hshutdown ⊢
            exact hshutdown
        next => rfl

end Driver

/-! ## 4. Start-ups and clean-ups -/

namespace Start

/-- The start gets to `generateUDPConfigs`. -/
def reachesSockets (start : Start) : Bool := !start.outcome.leavesFlags && start.initializeWintun

/-- How many sockets the start opens that `initSocket` does not close again. -/
def openedSockets (start : Start) : Nat :=
  if start.reachesSockets then succeeding start.initSocket start.activatedAdapters else 0

end Start

/-- As many successful start-ups as clean-ups between the two. -/
def Balanced (before after : Winsock) : Prop :=
  after.startups + before.cleanups = before.startups + after.cleanups

namespace Driver

/-- **What a start leaves of Winsock**, wherever it ends. -/
theorem initRun_opens (start : Start) (d : Driver) :
    Opens start.openedSockets d.winsock (d.initRun start).2.winsock := by
  unfold initRun Start.openedSockets Start.reachesSockets StartOutcome.leavesFlags
  cases hconf : start.configFile.internalConfig? with
  | none =>
    simp only [Start.outcome, hconf, Option.isNone_none, Bool.true_or, Bool.not_true,
      Bool.false_and, Bool.false_eq_true, if_false]
    exact .refl _
  | some internalConfig =>
    have hactivated : start.activatedAdapters =
        activated (start.adapterList internalConfig.names) := by
      simp only [Start.activatedAdapters, hconf]
    simp only [Start.outcome, hconf, hasActivatedNetworkAdapters_eq, hactivated]
    by_cases hnone : activated (start.adapterList internalConfig.names) = 0
    · simp [hnone, Opens.refl]
    · have hopens := (generateUDPConfigsFrom_opens 65530 0 start.initSocket
        (start.adapterList internalConfig.names) d.winsock).2
      obtain ⟨_, _, initializeWintun, _, getAdapterHandle, wintunStartSession, _⟩ := start
      cases initializeWintun with
      | false => simp [hnone, Opens.refl]
      | true =>
        cases getAdapterHandle <;> cases wintunStartSession <;>
          simpa [hnone, generateUDPConfigs] using hopens

/-- One clean-up more than in the state before. -/
structure CleansUp (w w' : Winsock) : Prop where
  startups : w'.startups = w.startups
  cleanups : w'.cleanups = w.cleanups + 1
  count : w'.count = w.count - 1

/-- A `shutdown` that has something to do is one clean-up. -/
theorem shutdown_cleansUp {d d' : Driver} (h : d.shutdown = some d')
    (hexited : d.app.exited = false) :
    CleansUp d.winsock d'.winsock := by
  rw [shutdown, hexited, if_neg Bool.false_ne_true] at h
  obtain ⟨app, -, rfl⟩ := Option.map_eq_some_iff.mp h
  obtain ⟨hcount, hstartups, hcleanups⟩ := closeSockets_calls d.udpconfigs d.winsock
  exact ⟨hstartups, congrArg (· + 1) hcleanups, congrArg (· - 1) hcount⟩

/-- `run` uses Winsock only where it shuts the driver down again. -/
theorem run_winsock {start : Start} {d d' : Driver} (h : d.run start = some d')
    (hexited : d.app.exited = false) :
    (start.setConsoleCtrlHandler = true → d'.winsock = d.winsock) ∧
      (start.setConsoleCtrlHandler = false → CleansUp d.winsock d'.winsock) := by
  unfold run at h
  split at h
  next conf size references _ _ _ =>
    split at h
    next =>
      obtain ⟨e, he, rfl⟩ := Option.map_eq_some_iff.mp h
      refine ⟨fun hctrl => ?_, fun hctrl => ?_⟩
      · rw [hctrl, if_pos rfl, Option.some.injEq] at he
        subst he
        rfl
      · rw [hctrl, if_neg Bool.false_ne_true] at he
        have hcleans := shutdown_cleansUp he hexited
        exact hcleans
    next => contradiction
  next => contradiction

/-- **A start that reaches `run` comes to its end**, and from `run` on there is one clean-up. -/
theorem cycle_cleansUp {start : Start} (h : start.outcome.succeeds = true) (d : Driver) :
    ∃ d', d.cycle start = some d' ∧ CleansUp (d.initRun start).2.winsock d'.winsock := by
  have hinit := initRun_app_unshared start d
  obtain ⟨app, hrun, -, hexited, hstarted, -⟩ := Application.run_initRun hinit h
  have hgoing : (d.initRun start).2.app.exited = false := by
    obtain ⟨conf, -, happ⟩ := Application.initRun_succeeds hinit h
    rw [happ]
  have hmap : ((d.initRun start).2.run start).map Driver.app = some app := by
    rw [run_app, hrun]
  obtain ⟨d₁, hd₁, rfl⟩ := Option.map_eq_some_iff.mp hmap
  obtain ⟨hset, hnotSet⟩ := run_winsock hd₁ hgoing
  unfold cycle
  rw [hd₁, Option.bind_some]
  cases hctrl : start.setConsoleCtrlHandler with
  | true =>
    have hexited₁ : d₁.app.exited = false := by
      rw [hexited, Start.outcome, hctrl]
      rfl
    have hsome : d₁.app.shutdown.isSome = true :=
      (Application.shutdown_isSome_iff d₁.app).mpr hstarted
    rw [← shutdown_app, Option.isSome_map] at hsome
    obtain ⟨d', hd'⟩ := Option.isSome_iff_exists.mp hsome
    have hcleans := shutdown_cleansUp hd' hexited₁
    rw [hset hctrl] at hcleans
    exact ⟨d', hd', hcleans⟩
  | false =>
    have hexited₁ : d₁.app.exited = true := by
      rw [hexited, Start.outcome, hctrl]
      rfl
    exact ⟨d₁, by rw [shutdown, if_pos hexited₁], hnotSet hctrl⟩

end Driver

-- Reaching `run` takes all that reaching `generateUDPConfigs` takes.
theorem Start.openedSockets_of_succeeds {start : Start} (h : start.outcome.succeeds = true) :
    start.openedSockets = succeeding start.initSocket start.activatedAdapters := by
  have hreaches : start.reachesSockets = true := by
    simp only [StartOutcome.succeeds, Bool.and_eq_true] at h
    rw [Start.reachesSockets, h.1.1.1, Bool.true_and]
    exact h.1.1.2
  rw [openedSockets, hreaches, if_pos rfl]

/-- **Start-ups and clean-ups are balanced exactly if one socket could be opened.**  There is a
start-up for every socket and a single clean-up for all of them. -/
theorem cycle_balanced_iff {start : Start} (h : start.outcome.succeeds = true) (d : Driver) :
    ∃ d', d.cycle start = some d' ∧
      (Balanced d.winsock d'.winsock ↔
        succeeding start.initSocket start.activatedAdapters = 1) ∧
      (0 < d.winsock.count → (d'.winsock.count = d.winsock.count ↔
        succeeding start.initSocket start.activatedAdapters = 1)) := by
  obtain ⟨d', hcycle, hcleans⟩ := d.cycle_cleansUp h
  have hopens := d.initRun_opens start
  rw [Start.openedSockets_of_succeeds h] at hopens
  have hcalls := hopens.calls
  have hcount := hopens.count
  have hstartups' := hcleans.startups
  have hcleanups' := hcleans.cleanups
  have hcount' := hcleans.count
  refine ⟨d', hcycle, ?_, fun hpos => ?_⟩
  · unfold Balanced
    omega
  · omega

/-- A start with two adapters, both configured, in which everything works. -/
def twoAdapters : Start where
  configFile := .read { adapterSubnetBits := 24, serverPort := 5555, logLevel := 2
                        names := [[65], [66]] }
  adapters := [⟨[65], ⟨10, 0, 0, 1⟩⟩, ⟨[66], ⟨10, 0, 1, 1⟩⟩]
  initializeWintun := true
  initSocket _ := .succeeds
  getAdapterHandle := true
  wintunStartSession := true
  setConsoleCtrlHandler := true

/-- A driver that has not been started yet, with the start-up of the control connection counted. -/
def stoppedDriver : Driver where
  app := {}
  adapterList := []
  udpconfigs := []
  winsock := ⟨1, 1, 0, 1, [], fun _ hs => absurd hs List.not_mem_nil⟩

-- The second adapter has no address of its own to bind to.
theorem cycle_balanced_iff_bindFails :
    let start := { twoAdapters with
      initSocket := fun k => if k = 0 then .succeeds else .bindFails }
    succeeding start.initSocket start.activatedAdapters = 1 ∧
      ∃ d', stoppedDriver.cycle start = some d' ∧
        (Balanced stoppedDriver.winsock d'.winsock ↔
          succeeding start.initSocket start.activatedAdapters = 1) ∧
        (0 < stoppedDriver.winsock.count → (d'.winsock.count = stoppedDriver.winsock.count ↔
          succeeding start.initSocket start.activatedAdapters = 1)) :=
  ⟨by decide, cycle_balanced_iff (by decide) stoppedDriver⟩

/-- With two sockets one start-up is left over. -/
theorem twoAdapters_notBalanced :
    ¬ ∀ (start : Start) (d d' : Driver), start.outcome.succeeds = true →
      d.cycle start = some d' → Balanced d.winsock d'.winsock := by
  intro hclaim
  have hcalls : (stoppedDriver.cycle twoAdapters).map (fun d => (d.winsock.startups,
      d.winsock.cleanups)) = some (3, 1) := by decide
  obtain ⟨d', hcycle, hd'⟩ := Option.map_eq_some_iff.mp hcalls
  have hbalanced := hclaim twoAdapters stoppedDriver d' (by decide) hcycle
  rw [Balanced, (Prod.mk.inj hd').1, (Prod.mk.inj hd').2] at hbalanced
  revert hbalanced
  decide

/-! ## 5. What a failed start leaves behind -/

/-- The start fails at one of the exits behind `generateUDPConfigs`. -/
def Start.failsWithSockets (start : Start) : Bool :=
  start.reachesSockets && !(start.getAdapterHandle && start.wintunStartSession)

/-- Every socket bound in between has been closed again. -/
def ClosedAgain (before after : Winsock) : Prop :=
  ∀ s ∈ after.sockets, s.boundTo.isSome = true → s ∈ before.sockets

theorem Start.succeeds_eq (start : Start) : start.outcome.succeeds =
    (start.reachesSockets && (start.getAdapterHandle && start.wintunStartSession)) := by
  simp only [StartOutcome.succeeds, Start.reachesSockets, Start.outcome, Bool.and_assoc]

/-- **A failed start closes its sockets exactly if it has none.**  The exits behind
`generateUDPConfigs` leave every socket open. -/
theorem failedStart_closes_iff (start : Start) (d : Driver) :
    ((d.initRun start).1 = false → ClosedAgain d.winsock (d.initRun start).2.winsock) ↔
      ¬ (start.failsWithSockets = true ∧
        0 < succeeding start.initSocket start.activatedAdapters) := by
  have hopens := d.initRun_opens start
  have hfst : (d.initRun start).1 = start.outcome.succeeds :=
    Application.initRun_fst (Driver.initRun_app_unshared start d)
  rw [hfst, Start.succeeds_eq, Start.failsWithSockets]
  rw [Start.openedSockets] at hopens
  cases hreaches : start.reachesSockets with
  | false =>
    rw [hreaches, if_neg Bool.false_ne_true] at hopens
    simp only [Bool.false_and, Bool.false_eq_true, false_and, not_false_eq_true, iff_true]
    exact fun _ s hs _ => hopens.closed rfl s hs
  | true =>
    rw [hreaches, if_pos rfl] at hopens
    simp only [Bool.true_and]
    cases hlate : start.getAdapterHandle && start.wintunStartSession with
    | true => simp
    | false =>
      simp only [Bool.not_false, true_and, forall_const]
      constructor
      · intro hclosed hpos
        obtain ⟨s, hs, hnew, hbound⟩ := hopens.opened hpos
        have hlt := d.winsock.handle_lt s (hclosed s hs hbound)
        omega
      · exact fun hnone s hs _ => hopens.closed (by omega) s hs

/-- The adapter handle cannot be had, and both sockets stay open. -/
theorem failedStart_leaves_sockets :
    ¬ ∀ (start : Start) (d : Driver), (d.initRun start).1 = false →
      ClosedAgain d.winsock (d.initRun start).2.winsock := by
  intro hclaim
  have hclosed := hclaim { twoAdapters with getAdapterHandle := false } stoppedDriver (by decide)
    ⟨1, some ⟨⟨10, 0, 0, 1⟩, 65530⟩⟩ (by decide) rfl
  exact absurd hclosed List.not_mem_nil

end NetShare
