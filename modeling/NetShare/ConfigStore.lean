import NetShare.ConfigSettings
import NetShare.Reasoning.Halting
import NetShare.Reasoning.Mealy

/-!
# The config file as a store

The config file outlives the requests and the process.  A start reads it and creates it if it is not
there, a config Put reads it and writes it back.  Seen from outside, a daemon that keeps its
configuration as bytes in a file answers like one that keeps it as a value.
-/

namespace NetShare

open Reasoning ConfigurationWorker

/-! ## 1. What the other requests do to the file -/

/-- The file is replaced behind the back of a handler. -/
def World.withFile (file : Option (List UInt8)) (w : World) : World := { w with configFile := file }

/-- A config Put that passes the checks of `data`. -/
def configPut? : Option Json → Option Json
  | some doc =>
    if doc.stringMember? "type" = some "Put" ∧ doc.stringMember? "on" = some "config" ∧
        (doc.member? "data").any Json.isObject = true then some doc
    else none
  | none => none

namespace ConfigurationWorker

open HaltingM

variable {file : Option (List UInt8)}

theorem hasMember_withFile (v : Json) (name : String) :
    Commutes (World.withFile file) (hasMember v name) := by
  unfold hasMember
  split
  · exact .pure _
  · exact .throw _

theorem member_withFile (v : Json) (name : String) :
    Commutes (World.withFile file) (member v name) := by
  unfold member
  split
  · exact .pure _
  · exact .throw _

theorem getString_withFile (v : Json) : Commutes (World.withFile file) (getString v) := by
  unfold getString
  split
  · exact .pure _
  · exact .throw _

theorem sendLine_withFile (line : Json) : Commutes (World.withFile file) (sendLine line) :=
  fun _ => rfl

theorem getApplication_withFile : Commutes (World.withFile file) getApplication := fun _ => rfl

theorem callInitRun_withFile (outcome : StartOutcome) :
    Commutes (World.withFile file) (callInitRun outcome) := by
  intro w
  cases h : w.app.initRun outcome with
  | none =>
    have h' : (w.withFile file).app.initRun outcome = none := h
    rw [exec_callInitRun_none h, exec_callInitRun_none h']
  | some r =>
    have h' : (w.withFile file).app.initRun outcome = some r := h
    rw [exec_callInitRun h, exec_callInitRun h']
    rfl

theorem callApplication_withFile (f : Application → Option Application) :
    Commutes (World.withFile file) (callApplication f) := by
  intro w
  cases h : f w.app with
  | none =>
    have h' : f (w.withFile file).app = none := h
    rw [exec_callApplication_none h, exec_callApplication_none h']
  | some app =>
    have h' : f (w.withFile file).app = some app := h
    rw [exec_callApplication h, exec_callApplication h']
    rfl

-- What a first part can return is what it was looked up as.
theorem member_of_exec {v b : Json} {name : String} {w w' : World}
    (h : (member v name).exec w = (.ok b, w')) : v.member? name = some b := by
  unfold member at h
  split at h
  next hv => rw [hv, Except.ok.inj (Prod.mk.inj h).1]
  next => cases (Prod.mk.inj h).1

theorem string_of_exec {v : Json} {s : String} {w w' : World}
    (h : (getString v).exec w = (.ok s, w')) : v.string? = some s := by
  unfold getString at h
  split at h
  next hv => rw [hv, Except.ok.inj (Prod.mk.inj h).1]
  next => cases (Prod.mk.inj h).1

theorem withData_withFile {missing : String} {doc : Json} {k : Json → Handler Unit}
    (hk : ∀ data, doc.member? "data" = some data → data.isObject = true →
      Commutes (World.withFile file) (k data)) :
    Commutes (World.withFile file) (withData missing doc k) := by
  refine .bind (hasMember_withFile doc "data") fun _ b _ _ => ?_
  cases b with
  | false => exact sendLine_withFile _
  | true =>
    refine .bind (member_withFile doc "data") fun _ data _ hdata => ?_
    split
    · exact sendLine_withFile _
    next hobj =>
      refine .bind (member_withFile doc "data") fun _ data' _ hdata' => ?_
      have hsame := (member_of_exec hdata).symm.trans (member_of_exec hdata')
      rw [Option.some.inj hsame] at hobj
      exact hk data' (member_of_exec hdata') (by simpa using hobj)

theorem withState_withFile {missing : String} {doc : Json} {k : String → Handler Unit}
    (hk : ∀ state, Commutes (World.withFile file) (k state)) :
    Commutes (World.withFile file) (withState missing doc k) := by
  refine withData_withFile fun data _ _ => ?_
  refine .bind (hasMember_withFile data "state") fun _ b _ _ => ?_
  cases b with
  | false => exact sendLine_withFile _
  | true =>
    refine .bind (member_withFile data "state") fun _ v _ _ => ?_
    split
    · exact sendLine_withFile _
    · refine .bind (member_withFile data "state") fun _ v _ _ => ?_
      exact .bind (getString_withFile v) fun _ state _ _ => hk state

theorem parseConnectionStatePutMessage_withFile (doc : Json) :
    Commutes (World.withFile file) (parseConnectionStatePutMessage doc) := by
  refine withState_withFile fun state => ?_
  split
  · exact .bind (fun _ => rfl) fun _ _ _ _ => sendLine_withFile _
  · exact .pure _

theorem parseDriverStatePutMessage_withFile (outcome : StartOutcome) (doc : Json) :
    Commutes (World.withFile file) (parseDriverStatePutMessage outcome doc) := by
  refine withState_withFile fun state => ?_
  have hsend (line : Json) : Commutes (World.withFile file) (sendLine line) :=
    sendLine_withFile line
  split
  · refine .bind getApplication_withFile fun _ app _ _ => ?_
    split
    · exact hsend _
    · refine .bind getApplication_withFile fun _ app _ _ => ?_
      split
      · exact hsend _
      · refine .bind (hsend _) fun _ _ _ _ => ?_
        refine .bind (callInitRun_withFile outcome) fun _ successful _ _ => ?_
        cases successful with
        | true => exact .bind (callApplication_withFile _) fun _ _ _ _ => hsend _
        | false => exact .bind getApplication_withFile fun _ _ _ _ => hsend _
  · split
    · refine .bind getApplication_withFile fun _ app _ _ => ?_
      split
      · exact hsend _
      · refine .bind getApplication_withFile fun _ app _ _ => ?_
        split
        · refine .bind (hsend _) fun _ _ _ _ => ?_
          refine .bind (callApplication_withFile _) fun _ _ _ _ => ?_
          refine .bind getApplication_withFile fun _ app _ _ => ?_
          split
          · exact hsend _
          · exact hsend _
        · exact hsend _
    · exact hsend _

theorem runExitHandlers_withFile (n : Nat) :
    Commutes (World.withFile file) (runExitHandlers n) := by
  induction n with
  | zero => exact .pure _
  | succ n ih => exact .bind (callApplication_withFile _) fun _ _ _ _ => ih

theorem stopDeamonLoop_withFile (rounds : Nat) :
    Commutes (World.withFile file) (stopDeamonLoop rounds) := by
  induction rounds with
  | zero => exact .throw _
  | succ rounds ih =>
    have hlast : Commutes (World.withFile file) (do
        if !(← getApplication).isRunning then sendLine (getDeamonStateUpdate "worker.stopped")
        else stopDeamonLoop rounds) := by
      refine .bind getApplication_withFile fun _ app _ _ => ?_
      split
      · exact sendLine_withFile _
      · exact ih
    refine .bind getApplication_withFile fun _ app _ _ => ?_
    have hrest : Commutes (World.withFile file) (do
        if (← getApplication).isRunning then
          sendLine (getDeamonStateUpdate "worker.running")
          callShutdown
        if !(← getApplication).isRunning then sendLine (getDeamonStateUpdate "worker.stopped")
        else stopDeamonLoop rounds) := by
      refine .bind getApplication_withFile fun _ app _ _ => ?_
      dsimp only
      split
      · refine .bind (sendLine_withFile _) fun _ _ _ _ => ?_
        exact .bind (callApplication_withFile _) fun _ _ _ _ => hlast
      · exact hlast
    dsimp only
    split
    · exact .bind (sendLine_withFile _) fun _ _ _ _ => hrest
    · exact hrest

theorem parseDeamonStatePutMessage_withFile (doc : Json) :
    Commutes (World.withFile file) (parseDeamonStatePutMessage doc) := by
  refine withState_withFile fun state => ?_
  split
  · refine .bind (stopDeamonLoop_withFile 1) fun _ _ _ _ => ?_
    refine .bind (sendLine_withFile _) fun _ _ _ _ => ?_
    refine .bind getApplication_withFile fun _ app _ _ => ?_
    exact .bind (runExitHandlers_withFile _) fun _ _ _ _ => .throw _
  · exact sendLine_withFile _

/-- Where a string member is looked up, what follows may rely on it. -/
theorem parseOn_withFile {doc : Json} {k : String → Handler Unit}
    (hk : ∀ on, doc.stringMember? "on" = some on → Commutes (World.withFile file) (k on)) :
    Commutes (World.withFile file) (parseOn doc k) := by
  refine .bind (hasMember_withFile doc "on") fun _ b _ _ => ?_
  cases b with
  | false => exact sendLine_withFile _
  | true =>
    refine .bind (member_withFile doc "on") fun _ v _ _ => ?_
    split
    · refine .bind (member_withFile doc "on") fun _ v _ hv => ?_
      refine .bind (getString_withFile v) fun _ on _ hon => hk on ?_
      rw [Json.stringMember?, member_of_exec hv, Option.bind_some, string_of_exec hon]
    · exact sendLine_withFile _

theorem parsePutMessage_withFile {env : Environment} {doc : Json}
    (htype : doc.stringMember? "type" = some "Put") (hnot : configPut? (some doc) = none) :
    Commutes (World.withFile file) (parsePutMessage env doc) := by
  refine parseOn_withFile fun on hon => ?_
  split
  · exact parseDriverStatePutMessage_withFile env.start doc
  · split
    · exact parseDeamonStatePutMessage_withFile doc
    · split
      · exact parseConnectionStatePutMessage_withFile doc
      · split
        next hconfig =>
          refine withData_withFile fun data hdata hobj => ?_
          have hall : doc.stringMember? "type" = some "Put" ∧
              doc.stringMember? "on" = some "config" ∧
                (doc.member? "data").any Json.isObject = true :=
            ⟨htype, hconfig ▸ hon, by rw [hdata, Option.any_some, hobj]⟩
          rw [configPut?, if_pos hall] at hnot
          contradiction
        next => exact sendLine_withFile _

/-- **Only a config Put reads or writes the config file.** -/
theorem parseMessage_withFile {env : Environment} {request : Option Json}
    (hnot : configPut? request = none) :
    Commutes (World.withFile file) (parseMessage env request) := by
  cases request with
  | none => exact sendLine_withFile _
  | some doc =>
    refine .bind (hasMember_withFile doc "type") fun _ b _ _ => ?_
    cases b with
    | false => exact sendLine_withFile _
    | true =>
      refine .bind (member_withFile doc "type") fun _ v _ _ => ?_
      split
      · refine .bind (member_withFile doc "type") fun _ v _ hv => ?_
        refine .bind (getString_withFile v) fun _ type _ htype => ?_
        have hmember : doc.stringMember? "type" = some type := by
          rw [Json.stringMember?, member_of_exec hv, Option.bind_some, string_of_exec htype]
        split
        · refine parseOn_withFile fun on _ => ?_
          split
          · exact .pure _
          · exact sendLine_withFile _
        · split
          next hput => exact parsePutMessage_withFile (hput ▸ hmember) hnot
          next =>
            split
            · exact .pure _
            · exact sendLine_withFile _
      · exact sendLine_withFile _

end ConfigurationWorker

/-! ## 2. A daemon with a file and one with a value -/

/-- Whether the handling of a line reaches `initRun`. -/
def startsDriver (app : Application) : Option Json → Bool
  | some doc =>
    doc.stringMember? "type" = some "Put" && doc.stringMember? "on" = some "driver.state" &&
      doc.state? = some "running" && !app.isStartingUp && !app.isRunning
  | none => false

/-- What is left when a line has been handled; `τ` is what the configuration is kept as. -/
structure ConfiguredDaemon (τ : Type) where
  app : Application := {}
  config : Option τ := none

/-- A line that is handled, or the process ends and is started again.  `internalConfig` is the
object that `initRun` reads into. -/
inductive StoreInput (p : Platform) where
  | restart
  | request (env : Environment) (platform_eq : env.platform = p) (internalConfig : AppConfig)
      (line : Option Json)

structure StoreOutput where
  result : Except Halt Unit
  sent : List Json

/-- The application object for the next line: an exit or an exception ends the process, and the next
one begins with a new object.  After a fault or a failed assertion nothing can be said. -/
def processAfter (result : Except Halt Unit) (app : Application) : Option Application :=
  match result with
  | .ok _ => some app
  | .error .exit => some {}
  | .error .exception => some {}
  | .error _ => none

namespace Environment

/-- The start reads this file. -/
def reading (env : Environment) (internalConfig : AppConfig) (file : Option (List UInt8)) :
    Environment :=
  { env with start := { env.start with
      configFile := file.elim .missing (.ofFile env.platform env.memory internalConfig) } }

/-- The start uses this configuration. -/
def withConfig (env : Environment) (config : Option AppConfig) : Environment :=
  { env with start := { env.start with configFile := config.elim .missing .read } }

end Environment

variable {p : Platform}

/-- The daemon of the code.  A start without a file creates one; a Put that cannot read the file
would go on with memory that was never written. -/
def ConfiguredDaemon.nextFile (s : ConfiguredDaemon (List UInt8)) :
    StoreInput p → Option (StoreOutput × ConfiguredDaemon (List UInt8))
  | .restart => some (⟨.ok (), []⟩, { config := s.config })
  | .request env _ internalConfig line =>
    let r := env.conf.read p env.memory (inFile s.config)
    if (configPut? line).isSome ∧ r.file.failed = true then none
    else
      let (result, w) := handle (env.reading internalConfig s.config) line
        { app := s.app, configFile := s.config }
      let created := if startsDriver s.app line then some (defaultConfig.write p) else none
      (processAfter result w.app).map fun app =>
        (⟨result, w.sent⟩, { app, config := w.configFile <|> created })

/-- The daemon that keeps its configuration as a value. -/
def ConfiguredDaemon.nextValue (s : ConfiguredDaemon AppConfig) :
    StoreInput p → Option (StoreOutput × ConfiguredDaemon AppConfig)
  | .restart => some (⟨.ok (), []⟩, { config := s.config })
  | .request env _ _ line =>
    match configPut? line with
    | some doc => s.config.map fun c =>
      match c.put p env.popBack doc with
      | some c' => (⟨.ok (), []⟩, { s with config := some c' })
      | none => (⟨.error .exception, []⟩, { config := some c })
    | none =>
      let (result, w) := handle (env.withConfig s.config) line { app := s.app }
      let created := if startsDriver s.app line then some defaultConfig else none
      (processAfter result w.app).map fun app =>
        (⟨result, w.sent⟩, { app, config := s.config <|> created })

def fileDaemon (p : Platform) :
    Mealy (ConfiguredDaemon (List UInt8)) (StoreInput p) StoreOutput where
  next := ConfiguredDaemon.nextFile

def valueDaemon (p : Platform) : Mealy (ConfiguredDaemon AppConfig) (StoreInput p) StoreOutput where
  next := ConfiguredDaemon.nextValue

/-! ## 3. The file keeps the value -/

namespace AppConfig

variable (mem : Uninitialised) {f : InputFile} (h : f.failed = true)

include h

-- Once the fail bit is set, the reader takes nothing from the file.
theorem readString_of_failed (i : Nat) : (readString p mem i f).file = f := by
  have hchars (size : Nat) : (readChars size f).2 = f := by
    unfold readChars
    split
    · rw [f.read_of_failed h]
    · rw [← h]
  simp only [readString, Platform.readSizeT, f.read_of_failed h]
  split
  · exact hchars _
  · rfl

theorem readNames_of_failed (n i : Nat) : (readNames p mem n i f).2.1 = f := by
  induction n generalizing i with
  | zero => rfl
  | succ n ih =>
    simp only [readNames]
    split
    · exact readString_of_failed mem h i
    · rw [readString_of_failed mem h i]
      exact ih (i + 1)

theorem read_of_failed (c : AppConfig) : (c.read p mem f).file = f := by
  simp only [read, NsIpAddress.read, readOctet, Platform.readInt, Platform.readSizeT,
    f.read_of_failed h]
  exact readNames_of_failed mem h _ 0

end AppConfig

/-- The file holds the value, which can be stored. -/
def Keeps (p : Platform) (s : ConfiguredDaemon (List UInt8)) (t : ConfiguredDaemon AppConfig) :
    Prop :=
  s.app = t.app ∧ ∃ c : Option (StorableConfig p), t.config = c.map (·.config) ∧
    s.config = c.map (·.config.write p)

/-- The default configuration, where it fits in memory. -/
def defaultStorable (h : defaultConfig.InMemory p) : StorableConfig p where
  config := defaultConfig
  names_fit := h.names_fit
  name_fits := h.name_fits
  nul_free := by
    intro s hs
    obtain rfl := List.mem_singleton.mp hs
    decide

/-- A start from a file that was written uses the configuration it was written for. -/
theorem Environment.reading_eq (env : Environment) (internalConfig : AppConfig)
    (c : Option (StorableConfig env.platform)) :
    env.reading internalConfig (c.map (·.config.write env.platform)) =
      env.withConfig (c.map (·.config)) := by
  cases c with
  | none => rfl
  | some c =>
    obtain ⟨hconfig, hthrown⟩ := AppConfig.read_stored env.memory c internalConfig
    simp only [reading, withConfig, Option.map_some, Option.elim_some, ConfigFileOutcome.ofFile,
      hthrown, hconfig, Bool.false_eq_true, if_false]

/-- What `configPut?` says of a line. -/
theorem configPut?_eq_some {line : Option Json} {doc : Json} (h : configPut? line = some doc) :
    line = some doc ∧ doc.Asks "Put" "config" ∧
      ∃ data, doc.member? "data" = some data ∧ data.isObject = true := by
  cases line with
  | none => contradiction
  | some doc' =>
    rw [configPut?] at h
    split at h
    next hall =>
      obtain rfl := Option.some.inj h
      obtain ⟨htype, hon, hdata⟩ := hall
      obtain ⟨data, hmember, hobj⟩ := (Option.any_eq_true _ _).mp hdata
      exact ⟨rfl, ⟨htype, hon⟩, data, hmember, hobj⟩
    next => contradiction

/-- A config Put overlays the value. -/
theorem keeps_configPut {s : ConfiguredDaemon (List UInt8)} {t : ConfiguredDaemon AppConfig}
    (h : Keeps p s t) {line : Option Json} {doc : Json} (hput : configPut? line = some doc)
    (env : Environment) (hp : env.platform = p) (internalConfig : AppConfig) :
    Option.Rel (fun a b => a.1 = b.1 ∧ Keeps p a.2 b.2)
      (s.nextFile (.request env hp internalConfig line))
      (t.nextValue (.request env hp internalConfig line)) := by
  subst hp
  obtain ⟨rfl, hasks, data, hdata, hobj⟩ := configPut?_eq_some hput
  obtain ⟨happ, c, ht, hs⟩ := h
  cases c with
  | none =>
    have hfailed :
        (env.conf.read env.platform env.memory (inFile s.config)).file.failed = true := by
      rw [hs, AppConfig.read_of_failed env.memory rfl env.conf]
      rfl
    simp only [ConfiguredDaemon.nextFile, ConfiguredDaemon.nextValue, hput, Option.isSome_some,
      hfailed, and_self, if_true, ht, Option.map_none]
    exact .none
  | some c =>
    have hread := (c.inMemory.read_back env.memory env.conf []).2.1
    rw [List.append_nil] at hread
    have hfailed :
        (env.conf.read env.platform env.memory (inFile s.config)).file.failed = false := by
      rw [hs, Option.map_some, inFile, hread]
    have hexec := handle_configPut hasks hdata hobj (env.reading internalConfig s.config) c
      (w := { app := s.app, configFile := s.config }) (hs.trans rfl)
    simp only [ConfiguredDaemon.nextFile, ConfiguredDaemon.nextValue, hput, Option.isSome_some,
      hfailed, Bool.false_eq_true, and_false, if_false, ht, Option.map_some]
    rw [hexec]
    have hsame : c.config.put (env.reading internalConfig s.config).platform
        (env.reading internalConfig s.config).popBack doc =
      c.config.put env.platform env.popBack doc := rfl
    rw [hsame]
    cases hnew : c.config.put env.platform env.popBack doc with
    | none =>
      refine .some ⟨rfl, rfl, some c, rfl, ?_⟩
      show (s.config <|> _) = _
      rw [hs]
      rfl
    | some c' => exact .some ⟨rfl, happ, some (c.ofPut hnew), rfl, rfl⟩

/-- Any other line leaves the value, or creates the default. -/
theorem keeps_other (hdefault : defaultConfig.InMemory p) {s : ConfiguredDaemon (List UInt8)}
    {t : ConfiguredDaemon AppConfig} (h : Keeps p s t) {line : Option Json}
    (hnot : configPut? line = none) (env : Environment) (hp : env.platform = p)
    (internalConfig : AppConfig) :
    Option.Rel (fun a b => a.1 = b.1 ∧ Keeps p a.2 b.2)
      (s.nextFile (.request env hp internalConfig line))
      (t.nextValue (.request env hp internalConfig line)) := by
  subst hp
  obtain ⟨happ, c, ht, hs⟩ := h
  have hframe : handle (env.withConfig t.config) line { app := t.app, configFile := s.config } =
      ((handle (env.withConfig t.config) line { app := t.app }).1,
        (handle (env.withConfig t.config) line { app := t.app }).2.withFile s.config) :=
    parseMessage_withFile hnot { app := t.app }
  have henv : env.reading internalConfig s.config = env.withConfig t.config := by
    rw [hs, ht, env.reading_eq]
  simp only [ConfiguredDaemon.nextFile, ConfiguredDaemon.nextValue, hnot, Option.isSome_none,
    Bool.false_eq_true, false_and, if_false, henv, happ, hframe, World.withFile]
  cases processAfter (handle (env.withConfig t.config) line { app := t.app }).1
      (handle (env.withConfig t.config) line { app := t.app }).2.app with
  | none => exact .none
  | some app =>
    refine .some ⟨rfl, rfl, ?_⟩
    cases c with
    | some c =>
      refine ⟨some c, ?_, ?_⟩
      · rw [ht]
        rfl
      · rw [hs]
        rfl
    | none =>
      rw [ht, hs]
      cases startsDriver t.app line with
      | true => exact ⟨some (defaultStorable hdefault), rfl, rfl⟩
      | false => exact ⟨none, rfl, rfl⟩

theorem fileDaemon_simulates (hdefault : defaultConfig.InMemory p) :
    (fileDaemon p).Simulates (valueDaemon p) (Keeps p) (· = ·) := by
  intro s t input h
  cases input with
  | restart =>
    obtain ⟨-, c, ht, hs⟩ := h
    exact .some ⟨rfl, rfl, c, ht, hs⟩
  | request env hp internalConfig line =>
    cases hput : configPut? line with
    | some doc => exact keeps_configPut h hput env hp internalConfig
    | none => exact keeps_other hdefault h hput env hp internalConfig

/-- **The config file is as good as a value.**  Over any sequence of lines, starts and restarts a
daemon whose file holds a configuration, or that has no file yet, answers like one that keeps the
configuration as a value; its application objects are the same, and the file holds the value. -/
theorem configFile_refines_value (hdefault : defaultConfig.InMemory p)
    (c : Option (StorableConfig p)) (inputs : List (StoreInput p)) :
    Option.Rel (fun a b => a.1 = b.1 ∧ Keeps p a.2 b.2)
      ((fileDaemon p).run { config := c.map (·.config.write p) } inputs)
      ((valueDaemon p).run { config := c.map (·.config) } inputs) := by
  have hrun := (fileDaemon_simulates hdefault).run
    (s := { config := c.map (·.config.write p) }) (t := { config := c.map (·.config) })
    ⟨rfl, c, rfl, rfl⟩ inputs
  rwa [List.forall₂_eq_eq_eq] at hrun

/-- A first start, which creates the file, and after it a change of the port. -/
def startAndPut : List (StoreInput .x64) :=
  let startRequest : Json := .object [("type", .string "Put"), ("on", .string "driver.state"),
    ("data", .object [("state", .string "running")])]
  [.request (environmentOf goodStart) rfl oneName (some startRequest), .restart,
    .request (environmentOf goodStart) rfl oneName (some (examplePut [])),
    .request (environmentOf goodStart) rfl oneName (some startRequest)]

theorem configFile_refines_value_startAndPut :
    Option.Rel (fun a b => a.1 = b.1 ∧ Keeps .x64 a.2 b.2)
      ((fileDaemon .x64).run { config := none } startAndPut)
      ((valueDaemon .x64).run { config := none } startAndPut) :=
  configFile_refines_value (p := .x64) ⟨by decide, by decide⟩ none startAndPut

end NetShare
