import NetShare.AppConfig

/-!
# The application object

`Application` from `Application.h` and `Application.cpp`: `initRun`, `run` and `shutdown`, each
taken as a whole.  What the system answers in a start is a `StartOutcome`.  A function is `none`
where it would use a null or freed pointer, or give away a handle that was never set or is not open,
so that nothing can be said about what follows.
-/

namespace NetShare

/-! ## 1. Data -/

/-- A raw pointer, or a `shared_ptr`, which is never `freed`. -/
inductive Pointer (α : Type) where
  | null
  | live (target : α)
  | freed
deriving DecidableEq

namespace Pointer

variable {α : Type}

def target? : Pointer α → Option α
  | .live target => some target
  | _ => none

/-- What `delete` leaves behind; deleting a null pointer does nothing, deleting twice is a fault. -/
def delete : Pointer α → Option (Pointer α)
  | .null => some .null
  | .live _ => some .freed
  | .freed => none

theorem target?_live (target : α) : (live target).target? = some target := rfl

theorem delete_of_ne_freed {p : Pointer α} (h : p ≠ .freed) : ∃ q, p.delete = some q := by
  cases p with
  | freed => contradiction
  | _ => exact ⟨_, rfl⟩

end Pointer

/-- A handle of the system; `unset` is the one that nothing has been assigned to. -/
inductive Handle where
  | unset
  | null
  | opened
  | closed
deriving DecidableEq

/-- `Config` without its queues and statistics.  The constructor sets neither `isRunning`, which is
`none` until it is set, nor the handles. -/
structure Config where
  serverIpv4Adress : NsIpAddress
  serverPort : UInt16
  winTunAdapterIpv4Adress : NsIpAddress
  winTunAdapterSubnetBits : UInt8
  logLevel : Int32
  isRunning : Option Bool := none
  quitEvent : Handle := .unset
  adapterHandle : Handle := .unset
  sessionHandle : Handle := .unset
deriving DecidableEq

/-- The `Config` that `initRun` builds from the stored configuration; the numbers are cut to the
width of their fields. -/
def Config.ofAppConfig (c : AppConfig) : Config where
  serverIpv4Adress := c.serverIp
  serverPort := .ofNat c.serverPort.toBitVec.toNat
  winTunAdapterIpv4Adress := c.adapterIp
  winTunAdapterSubnetBits := .ofNat c.adapterSubnetBits.toBitVec.toNat
  logLevel := c.logLevel

/-- `udpconfigs`, `udpconfigsReferences` and `Workers` point to vectors and an array of these
lengths; `exitHandlers` counts the registrations of `nsShutdown` with `atexit`.  `namesShared` says
that `names` of `internalConfig` is the vector that `adapterNames` owns.  The profiling of a start
is left out. -/
structure Application where
  conf : Pointer Config := .null
  udpconfigs : Pointer Nat := .null
  udpconfigsReferences : Pointer Nat := .null
  numberOfWorkers : Nat := 0
  Workers : Pointer Nat := .null
  exitHandlers : Nat := 0
  exited : Bool := true
  startingUp : Bool := false
  crashed : Bool := false
  crashReason : String := ""
  namesShared : Bool := false
deriving DecidableEq

/-- How the reading of the config file ends; a missing file is created with defaults. -/
inductive ConfigFileOutcome where
  | missing
  | read (internalConfig : AppConfig)
  | throws
deriving DecidableEq

/-- What the steps of one start yield; `activatedAdapters` is the number of adapters that
`deactiveEverythingBut` leaves activated. -/
structure StartOutcome where
  configFile : ConfigFileOutcome
  activatedAdapters : Nat
  initializeWintun : Bool
  getAdapterHandle : Bool
  wintunStartSession : Bool
  setConsoleCtrlHandler : Bool
deriving DecidableEq

/-- A start in which everything works. -/
def goodStart : StartOutcome := ⟨.missing, 1, true, true, true, true⟩

/-- The bytes of a name as the config file holds them. -/
def bytesOf (s : String) : List UInt8 := s.toList.flatMap String.utf8EncodeChar

/-- What `initRun` writes when there is no config file. -/
def defaultConfig : AppConfig where
  adapterIp := ⟨10, 0, 0, 3⟩
  adapterSubnetBits := 24
  serverIp := ⟨178, 63, 3, 159⟩
  serverPort := 5555
  logLevel := 2
  names := [bytesOf "\x7b8AB7398C-5F9B-44E1-BC1B-8B9A64EBDD30\x7d"]

/-- The configuration that a start goes on with. -/
def ConfigFileOutcome.internalConfig? : ConfigFileOutcome → Option AppConfig
  | .missing => some defaultConfig
  | .read c => some c
  | .throws => none

namespace Application

def isRunning (app : Application) : Bool := !app.exited

def isStartingUp (app : Application) : Bool := app.startingUp

def getCrashReason (app : Application) : String := app.crashReason

/-! ## 2. Starting -/

/-- `initRun` from `adapterNames.reset` on, with a vector that `adapterNames` did not own. -/
def initRunWith (internalConfig : AppConfig) (outcome : StartOutcome) (app : Application) :
    Bool × Application :=
  let conf := Config.ofAppConfig internalConfig
  let app := { app with namesShared := true }
  if outcome.activatedAdapters = 0 then
    (false, { app with
      conf := .live { conf with isRunning := some false }
      crashed := true
      crashReason := "NO_ACTIVATED_ADAPTERS" })
  else if !outcome.initializeWintun then
    (false, { app with conf := .live conf, exited := true, startingUp := false })
  else
    let conf := { conf with quitEvent := .opened }
    let app := { app with
      udpconfigs := .live (2 * outcome.activatedAdapters)
      udpconfigsReferences := .live (2 * outcome.activatedAdapters) }
    if !outcome.getAdapterHandle then
      (false, { app with
        conf := .live { conf with adapterHandle := .null }, exited := true, startingUp := false })
    else if !outcome.wintunStartSession then
      (false, { app with
        conf := .live { conf with adapterHandle := .closed, sessionHandle := .null }
        exited := true
        startingUp := false })
    else
      -- the end of the function is reached without a `return`
      (true, { app with
        conf := .live { conf with adapterHandle := .opened, sessionHandle := .opened } })

/-- `initRun`: whether it succeeded, and the object after it.  The two first failing exits leave
`exited` and `startingUp` as they are. -/
def initRun (outcome : StartOutcome) (app : Application) : Option (Bool × Application) :=
  let app := { app with crashed := false, crashReason := "", exited := false, startingUp := true }
  match outcome.configFile with
  | .missing =>
    -- the vector of before: one that `adapterNames` owns is deleted by `reset` and then used
    if app.namesShared then none else some (app.initRunWith defaultConfig outcome)
  | .read internalConfig => some (app.initRunWith internalConfig outcome)
  -- `read` has made a vector before it throws
  | .throws => some (false, { app with namesShared := false })

/-- `clearWorkers`. -/
def clearWorkers (app : Application) : Option Application :=
  if app.numberOfWorkers = 0 ∨ app.Workers.target?.isSome then
    app.Workers.delete.map fun workers => { app with Workers := workers }
  else none

/-- `shutdown`. -/
def shutdown (app : Application) : Option Application :=
  if app.exited then some app
  else
    match app.conf.target? with
    | none => none
    | some conf =>
      let app := { app with exited := true, conf := .live { conf with isRunning := some false } }
      if conf.quitEvent = .unset then none
      else
        match app.clearWorkers, app.udpconfigs.target? with
        | some app, some _ =>
          if conf.sessionHandle = .opened ∧ conf.adapterHandle = .opened then
            match app.udpconfigs.delete, app.udpconfigsReferences.delete with
            | some udpconfigs, some udpconfigsReferences =>
              some { app with conf := .null, udpconfigs, udpconfigsReferences }
            | _, _ => none
          else none
        | _, _ => none

/-- `run`. -/
def run (outcome : StartOutcome) (app : Application) : Option Application :=
  match app.conf.target?, app.udpconfigs.target?, app.udpconfigsReferences.target? with
  | some conf, some size, some references =>
    if size ≤ references then
      let app := { app with
        conf := .live { conf with isRunning := some true }
        numberOfWorkers := size + 2
        Workers := .live (size + 2) }
      let installed := if outcome.setConsoleCtrlHandler then some app else app.shutdown
      installed.map fun app =>
        { app with exitHandlers := app.exitHandlers + 1, startingUp := false }
    else none
  | _, _, _ => none

/-! ## 3. How a start ends -/

/-- The start finds no config file and uses the vector that `adapterNames` had and has deleted. -/
def LosesNames (app : Application) (outcome : StartOutcome) : Prop :=
  outcome.configFile = .missing ∧ app.namesShared = true

instance (app : Application) (outcome : StartOutcome) : Decidable (app.LosesNames outcome) :=
  inferInstanceAs (Decidable (_ ∧ _))

end Application

namespace StartOutcome

/-- The start fails at one of the two exits of `initRun` that leave the flags as they are. -/
def leavesFlags (outcome : StartOutcome) : Bool :=
  outcome.configFile.internalConfig?.isNone || outcome.activatedAdapters == 0

/-- `initRun` reaches its end. -/
def succeeds (outcome : StartOutcome) : Bool :=
  !outcome.leavesFlags && outcome.initializeWintun && outcome.getAdapterHandle &&
    outcome.wintunStartSession

end StartOutcome

/-- The handles are those that `shutdown` can do with. -/
structure Config.HasHandles (conf : Config) : Prop where
  quitEvent : conf.quitEvent ≠ .unset
  sessionHandle : conf.sessionHandle = .opened
  adapterHandle : conf.adapterHandle = .opened

namespace Application

variable {outcome : StartOutcome} {app app' : Application} {successful : Bool}

theorem initRun_eq_none_iff : app.initRun outcome = none ↔ app.LosesNames outcome := by
  unfold initRun LosesNames
  cases outcome.configFile with
  | missing => cases app.namesShared <;> simp
  | read internalConfig => simp
  | throws => simp

/-- A start that comes back could not read its file, or has gone on with what was in it. -/
theorem initRun_cases (h : app.initRun outcome = some (successful, app')) :
    let app₁ := { app with
      crashed := false, crashReason := "", exited := false, startingUp := true }
    (outcome.configFile.internalConfig? = none ∧ successful = false ∧
      app' = { app₁ with namesShared := false }) ∨
    ∃ internalConfig, outcome.configFile.internalConfig? = some internalConfig ∧
      (successful, app') = app₁.initRunWith internalConfig outcome := by
  unfold initRun at h
  cases hfile : outcome.configFile with
  | missing =>
    rw [hfile] at h
    dsimp only at h
    split at h
    next => contradiction
    next => exact .inr ⟨_, rfl, (Option.some.inj h).symm⟩
  | read internalConfig =>
    rw [hfile] at h
    exact .inr ⟨_, rfl, (Option.some.inj h).symm⟩
  | throws =>
    rw [hfile] at h
    obtain ⟨rfl, rfl⟩ := Prod.mk.inj (Option.some.inj h)
    exact .inl ⟨rfl, rfl, rfl⟩

theorem exists_initRun (h : ¬ app.LosesNames outcome) :
    ∃ successful app', app.initRun outcome = some (successful, app') := by
  cases hinit : app.initRun outcome with
  | none => exact absurd (initRun_eq_none_iff.mp hinit) h
  | some r => exact ⟨r.1, r.2, rfl⟩

-- Both conditions list the exits in the order of the code.
theorem initRun_fst (h : app.initRun outcome = some (successful, app')) :
    successful = outcome.succeeds := by
  unfold StartOutcome.succeeds StartOutcome.leavesFlags
  rcases initRun_cases h with ⟨hconf, rfl, -⟩ | ⟨c, hconf, hr⟩
  · simp [hconf]
  · rw [show successful = _ from congrArg Prod.fst hr]
    unfold initRunWith
    by_cases hn : outcome.activatedAdapters = 0
    · simp [hn]
    · cases outcome.initializeWintun <;> cases outcome.getAdapterHandle <;>
        cases outcome.wintunStartSession <;> simp [hconf, hn]

/-- A start that leaves the flags leaves them as if it were still going on. -/
theorem initRun_leavesFlags (h : app.initRun outcome = some (successful, app'))
    (hleaves : outcome.leavesFlags = true) : app'.exited = false ∧ app'.startingUp = true := by
  unfold StartOutcome.leavesFlags at hleaves
  rcases initRun_cases h with ⟨-, -, rfl⟩ | ⟨c, hconf, hr⟩
  · exact ⟨rfl, rfl⟩
  · have hn : outcome.activatedAdapters = 0 := by simpa [hconf] using hleaves
    rw [show app' = _ from congrArg Prod.snd hr]
    simp [initRunWith, hn]

/-- The other failing exits undo both flags. -/
theorem initRun_undone (h : app.initRun outcome = some (successful, app'))
    (hleaves : outcome.leavesFlags = false) (hfail : outcome.succeeds = false) :
    app'.exited = true ∧ app'.startingUp = false := by
  unfold StartOutcome.succeeds at hfail
  rw [hleaves] at hfail
  unfold StartOutcome.leavesFlags at hleaves
  rcases initRun_cases h with ⟨hconf, -, -⟩ | ⟨c, hconf, hr⟩
  · simp [hconf] at hleaves
  · have hn : outcome.activatedAdapters ≠ 0 := by simpa [hconf] using hleaves
    rw [show app' = _ from congrArg Prod.snd hr]
    unfold initRunWith
    revert hfail
    cases outcome.initializeWintun <;> cases outcome.getAdapterHandle <;>
      cases outcome.wintunStartSession <;> simp [hn]

/-- Any failing exit leaves the `Config` of before or one whose session is not open. -/
theorem initRun_noSession (h : app.initRun outcome = some (successful, app'))
    (hfail : outcome.succeeds = false) :
    app'.conf = app.conf ∨ ∃ conf, app'.conf = .live conf ∧ conf.sessionHandle ≠ .opened := by
  unfold StartOutcome.succeeds StartOutcome.leavesFlags at hfail
  rcases initRun_cases h with ⟨-, -, rfl⟩ | ⟨c, hconf, hr⟩
  · exact .inl rfl
  · refine .inr ?_
    rw [show app' = _ from congrArg Prod.snd hr]
    unfold initRunWith
    revert hfail
    by_cases hn : outcome.activatedAdapters = 0
    · simp [hn, Config.ofAppConfig]
    · cases outcome.initializeWintun <;> cases outcome.getAdapterHandle <;>
        cases outcome.wintunStartSession <;> simp [hconf, hn, Config.ofAppConfig]

/-- Past the config file `adapterNames` has the vector; a file that cannot be read leaves one that
nobody else has. -/
theorem initRun_namesShared (h : app.initRun outcome = some (successful, app')) :
    app'.namesShared = outcome.configFile.internalConfig?.isSome := by
  rcases initRun_cases h with ⟨hconf, -, rfl⟩ | ⟨c, hconf, hr⟩
  · rw [hconf]
    rfl
  · rw [show app' = _ from congrArg Prod.snd hr, hconf]
    unfold initRunWith
    by_cases hn : outcome.activatedAdapters = 0
    · simp [hn]
    · cases outcome.initializeWintun <;> cases outcome.getAdapterHandle <;>
        cases outcome.wintunStartSession <;> simp [hn]

/-- Everything that `shutdown` uses is there. -/
structure Started (app : Application) : Prop where
  conf : ∃ conf, app.conf = .live conf ∧ conf.HasHandles
  udpconfigs : app.udpconfigs.target?.isSome
  udpconfigsReferences : app.udpconfigsReferences ≠ .freed
  Workers : app.numberOfWorkers = 0 ∨ app.Workers.target?.isSome
  notFreed : app.Workers ≠ .freed

-- The first test of `shutdown`, on which the exit handlers rely.
theorem shutdown_of_exited (h : app.exited = true) : app.shutdown = some app := by
  rw [shutdown, if_pos h]

/-- What a `shutdown` has used that had something to do and has come back, and what it leaves. -/
theorem shutdown_cases (h : app.shutdown = some app') (hex : app.exited = false) :
    ∃ conf Workers udpconfigs udpconfigsReferences, app.conf.target? = some conf ∧
      conf.HasHandles ∧ (app.numberOfWorkers = 0 ∨ app.Workers.target?.isSome) ∧
      app.Workers.delete = some Workers ∧ app.udpconfigs.target?.isSome ∧
      app.udpconfigsReferences.delete = some udpconfigsReferences ∧
      app' = { app with
        exited := true, conf := .null, Workers, udpconfigs, udpconfigsReferences } := by
  rw [shutdown, hex, if_neg Bool.false_ne_true] at h
  split at h
  next => contradiction
  next conf hconf =>
    dsimp only at h
    split at h
    next => contradiction
    next hquit =>
      split at h
      next app₁ size hworkers hsize =>
        split at h
        next hopen =>
          unfold clearWorkers at hworkers
          split at hworkers
          next hn =>
            obtain ⟨Workers, hdelete, rfl⟩ := Option.map_eq_some_iff.mp hworkers
            split at h
            next udpconfigs udpconfigsReferences hu hr =>
              obtain rfl := Option.some.inj h
              exact ⟨conf, Workers, udpconfigs, udpconfigsReferences, hconf,
                ⟨hquit, hopen.1, hopen.2⟩, hn, hdelete, by rw [hsize]; rfl, hr, rfl⟩
            next => contradiction
          next => contradiction
        next => contradiction
      next => contradiction

/-- A `shutdown` that comes back leaves `exited` set and `startingUp` alone. -/
theorem shutdown_flags (h : app.shutdown = some app') :
    app'.exited = true ∧ app'.startingUp = app.startingUp := by
  cases hex : app.exited with
  | true =>
    obtain rfl := Option.some.inj ((shutdown_of_exited hex).symm.trans h)
    exact ⟨hex, rfl⟩
  | false =>
    obtain ⟨-, -, -, -, -, -, -, -, -, -, rfl⟩ := shutdown_cases h hex
    exact ⟨rfl, rfl⟩

/-- **`shutdown` comes back exactly if it has nothing to do or finds what it uses.** -/
theorem shutdown_isSome_iff (app : Application) :
    app.shutdown.isSome = true ↔ (app.exited = false → app.Started) := by
  constructor
  · intro h hex
    obtain ⟨app', hdown⟩ := Option.isSome_iff_exists.mp h
    obtain ⟨conf, Workers, udpconfigs, references, hconf, hhandles, hn, hw, hu, hr, -⟩ :=
      shutdown_cases hdown hex
    refine ⟨⟨conf, ?_, hhandles⟩, hu, fun hfreed => ?_, hn, fun hfreed => ?_⟩
    · cases hp : app.conf with
      | live conf' =>
        rw [hp] at hconf
        rw [Option.some.inj hconf]
      | _ =>
        rw [hp] at hconf
        contradiction
    · rw [hfreed] at hr
      contradiction
    · rw [hfreed] at hw
      contradiction
  · intro h
    cases hex : app.exited with
    | true => rw [shutdown_of_exited hex, Option.isSome_some]
    | false =>
      obtain ⟨⟨conf, hconf, hquit, hsession, hadapter⟩, hu, hr, hn, hw⟩ := h hex
      obtain ⟨Workers, hw⟩ := Pointer.delete_of_ne_freed hw
      obtain ⟨references, hr⟩ := Pointer.delete_of_ne_freed hr
      obtain ⟨size, hsize⟩ := Option.isSome_iff_exists.mp hu
      obtain ⟨udpconfigs, hu⟩ := Pointer.delete_of_ne_freed (p := app.udpconfigs) fun hfreed => by
        rw [hfreed] at hsize
        contradiction
      have hlive : app.conf.target? = some conf := by
        rw [hconf]
        rfl
      simp only [shutdown, hex, Bool.false_eq_true, if_false, hlive, hquit, clearWorkers, hn,
        if_true, hw, Option.map_some, hsize, hsession, hadapter, and_self, hu, hr,
        Option.isSome_some]

/-- What a successful `initRun` leaves. -/
theorem initRun_succeeds (h : app.initRun outcome = some (successful, app'))
    (hsucc : outcome.succeeds = true) :
    ∃ conf, conf.HasHandles ∧ app' =
      { app with
        conf := .live conf
        udpconfigs := .live (2 * outcome.activatedAdapters)
        udpconfigsReferences := .live (2 * outcome.activatedAdapters)
        exited := false
        startingUp := true
        crashed := false
        crashReason := ""
        namesShared := true } := by
  unfold StartOutcome.succeeds StartOutcome.leavesFlags at hsucc
  rcases initRun_cases h with ⟨hconf, -, -⟩ | ⟨c, hconf, hr⟩
  · simp [hconf] at hsucc
  · simp only [hconf, Option.isNone_some, Bool.false_or, Bool.and_eq_true, Bool.not_eq_true',
      beq_eq_false_iff_ne, ne_eq] at hsucc
    obtain ⟨⟨⟨hn, hw⟩, ha⟩, hs⟩ := hsucc
    refine ⟨{ Config.ofAppConfig c with
      quitEvent := .opened, adapterHandle := .opened, sessionHandle := .opened },
      ⟨Handle.noConfusion, rfl, rfl⟩, ?_⟩
    rw [show app' = _ from congrArg Prod.snd hr]
    simp [initRunWith, hn, hw, ha, hs]

/-- **After a successful `initRun`, `run` comes back** with a started driver, or, if the control
handler cannot be set, with one shut down again. -/
theorem run_initRun {app₁ : Application} (h : app.initRun outcome = some (successful, app₁))
    (hsucc : outcome.succeeds = true) :
    ∃ app', app₁.run outcome = some app' ∧ app'.startingUp = false ∧
      app'.exited = !outcome.setConsoleCtrlHandler ∧ (app'.exited = false → app'.Started) ∧
      (app'.exited = true → app'.conf = .null) ∧ app'.namesShared = true := by
  obtain ⟨conf, ⟨hquit, hsession, hadapter⟩, rfl⟩ := initRun_succeeds h hsucc
  cases hctrl : outcome.setConsoleCtrlHandler with
  | true =>
    simp only [run, Pointer.target?, Nat.le_refl, if_true, hctrl, Option.map_some]
    refine ⟨_, rfl, rfl, rfl, fun _ => ⟨⟨_, rfl, hquit, hsession, hadapter⟩, rfl, ?_, .inr rfl, ?_⟩,
      nofun, rfl⟩
    · exact nofun
    · exact nofun
  | false =>
    simp only [run, Pointer.target?, Nat.le_refl, if_true, hctrl, Bool.false_eq_true, if_false,
      shutdown, hquit, clearWorkers, Option.isSome_some, or_true, Pointer.delete, Option.map_some,
      hsession, hadapter, and_self]
    exact ⟨_, rfl, rfl, rfl, nofun, fun _ => rfl, rfl⟩

end Application

end NetShare
