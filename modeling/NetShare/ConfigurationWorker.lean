import NetShare.Application
import NetShare.Json
import NetShare.Reasoning.Halting

/-!
# Handling a request line

`ConfigurationWorker` from `ConfigurationWorker.cpp`, one request at a time.  A handler changes the
world and either returns or halts: the process exits, an exception leaves the thread, an assertion
of rapidjson fails, a function of `Application` does not come back, or the rounds given to a loop do
not suffice.
-/

namespace NetShare

open Reasoning

/-! ## 1. Handlers -/

inductive Halt where
  | exit
  | exception
  | assertion
  | fault
  | unfinished
deriving DecidableEq

/-- What the handling of a line reads and changes; `sent` are the lines sent on its connection, and
`configFile` is `none` when there is no such file. -/
structure World where
  app : Application := {}
  configFile : Option (List UInt8) := none
  running : Bool := true
  sent : List Json := []

def World.send (w : World) (line : Json) : World := { w with sent := w.sent ++ [line] }

abbrev Handler (β : Type) := HaltingM Halt World β

/-- What the steps that a line triggers depend on: how a start ends, and for a config Put the
platform, the memory not written yet (with it the integers of a new `AppConfig`) and how rapidjson
shortens an array.  Of `PopBack` it is only known that it takes something off the array. -/
structure Environment where
  start : StartOutcome
  platform : Platform
  memory : Uninitialised
  adapterSubnetBits : Int32
  serverPort : Int32
  logLevel : Int32
  popBack : List Json → Json × List Json
  popBack_shorter : ∀ names, names ≠ [] → (popBack names).2.length < names.length

/-- An environment that only differs in how a start ends. -/
def environmentOf (start : StartOutcome) : Environment where
  start := start
  platform := .x64
  memory := ⟨0, fun _ => 0, fun _ _ => 0⟩
  adapterSubnetBits := 0
  serverPort := 0
  logLevel := 0
  popBack names := (names.getLastD .null, names.dropLast)
  popBack_shorter names h := by
    rw [List.length_dropLast]
    have := List.length_pos_of_ne_nil h
    omega

namespace ConfigurationWorker

def sendLine (line : Json) : Handler Unit := modify (·.send line)

def getApplication : Handler Application := do return (← get).app

/-- `HasMember`, which asserts that the value is an object. -/
def hasMember (v : Json) (name : String) : Handler Bool :=
  if v.isObject then return (v.member? name).isSome else throw .assertion

/-- `operator[]`, which asserts that the value is an object with such a member. -/
def member (v : Json) (name : String) : Handler Json :=
  match v.member? name with
  | some w => return w
  | none => throw .assertion

/-- `GetString`, made into a `std::string`. -/
def getString (v : Json) : Handler String :=
  match v.string? with
  | some s => return s
  | none => throw .assertion

def getInt : Json → Handler Int32
  | .int i => return i
  | _ => throw .assertion

def getArray : Json → Handler (List Json)
  | .array elements => return elements
  | _ => throw .assertion

def callInitRun (outcome : StartOutcome) : Handler Bool := do
  let w ← get
  match w.app.initRun outcome with
  | some (successful, app) =>
    set { w with app }
    return successful
  | none => throw .fault

/-- A call that may not come back. -/
def callApplication (f : Application → Option Application) : Handler Unit := do
  let w ← get
  match f w.app with
  | some app => set { w with app }
  | none => throw .fault

def callRun (outcome : StartOutcome) : Handler Unit := callApplication (·.run outcome)

def callShutdown : Handler Unit := callApplication (·.shutdown)

/-! ## 2. Messages -/

/-- The object `{"type": type, "data": data}`. -/
def message (type : String) (data : List (String × Json)) : Json :=
  .object [("type", .string type), ("data", .object data)]

def getErrorResponse (errorMessage : String) : Json :=
  message "Response" [("error", .string errorMessage)]

def getDeamonStateUpdate (state : String) : Json := message "Update" [("state", .string state)]

def getDeamonStateResponse (state : String) : Json := message "Response" [("state", .string state)]

def getDriverStateUpdate (state : String) : Json := message "Update" [("state", .string state)]

def getDriverStateResponse (state : String) (crashed : Bool := false) (crashReason : String := "") :
    Json :=
  message "Response" (("state", .string state) ::
    if crashed then [("crashReason", .string crashReason)] else [])

/-- The answer to a request that closes the connection. -/
def closedResponse : Json := message "Response" [("state", .string "closed")]

/-! ## 3. Checks that several handlers begin with -/

/-- The check of `data`; the three later handlers say "type" where they mean "data". -/
def withData (missing : String) (doc : Json) (k : Json → Handler Unit) : Handler Unit := do
  if !(← hasMember doc "data") then
    sendLine (getErrorResponse missing)
  else if !(← member doc "data").isObject then
    sendLine (getErrorResponse "Member \"data\" needs to be an object")
  else
    k (← member doc "data")

/-- The check of `data.state` after it. -/
def withState (missing : String) (doc : Json) (k : String → Handler Unit) : Handler Unit :=
  withData missing doc fun data => do
    if !(← hasMember data "state") then
      sendLine (getErrorResponse "Member \"data\" needs to have a member \"state\"")
    else if !(← member data "state").isString then
      sendLine (getErrorResponse "Member \"data.state\" needs to be a string")
    else
      k (← getString (← member data "state"))

/-! ## 4. The handlers -/

/-- For each adapter a message is written into a buffer that nobody sends. -/
def parseAdapterGetMessage (_doc : Json) : Handler Unit := return

def parseConnectionStatePutMessage (doc : Json) : Handler Unit :=
  withState "The Put request needs a \"data\" member" doc fun state => do
    if state = "closed" then
      modify fun w => { w with running := false }
      sendLine closedResponse

def parseDriverStatePutMessage (outcome : StartOutcome) (doc : Json) : Handler Unit :=
  withState "The Put request needs a \"type\" member" doc fun state => do
    if state = "running" then
      if (← getApplication).isStartingUp then
        sendLine (getDriverStateResponse "startup")
      else if (← getApplication).isRunning then
        sendLine (getDriverStateResponse "running")
      else
        sendLine (getDriverStateUpdate "startup")
        if ← callInitRun outcome then
          callRun outcome
          sendLine (getDriverStateResponse "running")
        else
          let app ← getApplication
          sendLine (getDriverStateResponse "crashed" true app.getCrashReason)
    else if state = "stopped" then
      if (← getApplication).isStartingUp then
        sendLine (getDriverStateResponse "startup")
      else if (← getApplication).isRunning then
        sendLine (getDriverStateResponse "running")
        callShutdown
        if (← getApplication).isRunning then
          sendLine (getDriverStateResponse "running")
        else
          sendLine (getDriverStateResponse "stopped")
      else
        sendLine (getDriverStateResponse "stopped")
    else
      sendLine (getErrorResponse
        "Member \"data.state\" needs to be ether \"running\" or \"stopped\"")

/-- `atoi`: white space, a sign, digits; too large a number becomes the greatest or least `int`. -/
def atoi (s : List Char) : Int32 :=
  let s := s.dropWhile fun c => c = ' ' ∨ (9 ≤ c.toNat ∧ c.toNat ≤ 13)
  let digits (s : List Char) : Int :=
    (s.takeWhile Char.isDigit).foldl (fun n c => 10 * n + (c.toNat - 48)) 0
  let value :=
    match s with
    | '-' :: s => -digits s
    | '+' :: s => digits s
    | s => digits s
  .ofInt (max (-2 ^ 31) (min (2 ^ 31 - 1) value))

/-- What `s.substr(s.find(".") + 1, s.length())` gives; without a dot `npos + 1` is 0. -/
def afterDot (s : List Char) : List Char :=
  if '.' ∈ s then (s.dropWhile (· ≠ '.')).tail else s

/-- An `int` assigned to an octet. -/
def octetOf (i : Int32) : UInt8 := .ofNat i.toBitVec.toNat

/-- `parseIpString` from `utils.cpp`. -/
def parseIpString (ipAdress : String) : NsIpAddress :=
  let s1 := ipAdress.toList
  let s2 := afterDot s1
  let s3 := afterDot s2
  let s4 := afterDot s3
  { ipp1 := octetOf (atoi (s1.takeWhile (· ≠ '.')))
    ipp2 := octetOf (atoi (s2.takeWhile (· ≠ '.')))
    ipp3 := octetOf (atoi (s3.takeWhile (· ≠ '.')))
    ipp4 := octetOf (atoi s4) }

/-- `ns::log::LogLevel()`, whatever the string. -/
def getLogLevelFromString (_logLevel : String) : Int32 := 0

/-- The `names` loop from index `i`, as long as `i < names.Size()`: the names pushed.  The array
shrinks in every round, so its length bounds the rounds. -/
def popNames (popBack : List Json → Json × List Json) : Nat → Nat → List Json → List (List UInt8)
  | 0, _, _ => []
  | rounds + 1, i, names =>
    if i < names.length then
      let (value, names) := popBack names
      (value.string?.map bytesOf).toList ++ popNames popBack rounds (i + 1) names
    else []

/-- If the document has a member of this name and type, what is read from it goes into the
configuration. -/
def setting {β : Type} (doc : Json) (name : String) (isOfType : Json → Bool)
    (read : Json → Handler β) (store : β → AppConfig) (conf : AppConfig) : Handler AppConfig := do
  if ← hasMember doc name then
    if isOfType (← member doc name) then
      return store (← read (← member doc name))
  return conf

/-- `push_back` of one name after the other; it throws when the vector is full or the string does
not fit in memory. -/
def pushNames (p : Platform) (names : List (List UInt8)) : List (List UInt8) →
    Option (List (List UInt8))
  | [] => some names
  | s :: ss =>
    if names.length < p.maxNames ∧ s.length + 1 ≤ p.maxAlloc then pushNames p (names ++ [s]) ss
    else none

/-- The body of the last setting: the names that are stored with those of the array pushed. -/
def getNames (p : Platform) (popBack : List Json → Json × List Json) (names : List (List UInt8))
    (v : Json) : Handler (List (List UInt8)) := do
  let array ← getArray v
  match pushNames p names (popNames popBack array.length 0 array) with
  | some names => return names
  | none => throw .exception

/-- The settings of a config Put, which are looked up in the document itself. -/
def mergeConfig (p : Platform) (popBack : List Json → Json × List Json) (doc : Json)
    (conf : AppConfig) : Handler AppConfig := do
  let conf ← setting doc "logLevel" Json.isString getString
    (fun s => { conf with logLevel := getLogLevelFromString s }) conf
  let conf ← setting doc "serverIp" Json.isString getString
    (fun s => { conf with serverIp := parseIpString s }) conf
  let conf ← setting doc "serverPort" Json.isInt getInt
    (fun i => { conf with serverPort := i }) conf
  let conf ← setting doc "adapterIp" Json.isString getString
    (fun s => { conf with adapterIp := parseIpString s }) conf
  let conf ← setting doc "adapterSubnetBits" Json.isInt getInt
    (fun i => { conf with adapterSubnetBits := i }) conf
  setting doc "names" Json.isArray (getNames p popBack conf.names)
    (fun names => { conf with names }) conf

/-- What `ifstream` sees of the config file: opening a missing one fails, and so do all reads. -/
def inFile : Option (List UInt8) → InputFile
  | some bytes => { rest := bytes }
  | none => { rest := [], failed := true }

def parseConfigPutMessage (env : Environment) (doc : Json) : Handler Unit :=
  withData "The Put request needs a \"type\" member" doc fun _ => do
    let conf : AppConfig := {
      adapterSubnetBits := env.adapterSubnetBits
      serverPort := env.serverPort
      logLevel := env.logLevel }
    let r := conf.read env.platform env.memory (inFile (← get).configFile)
    if r.thrown then
      throw .exception
    else
      let conf ← mergeConfig env.platform env.popBack doc r.config
      modify fun w => { w with configFile := some (conf.write env.platform) }

/-- The functions registered with `atexit`, all of them `nsShutdown`. -/
def runExitHandlers : Nat → Handler Unit
  | 0 => return
  | n + 1 => do
    callShutdown
    runExitHandlers n

def exitProcess : Handler Unit := do
  runExitHandlers (← getApplication).exitHandlers
  throw .exit

/-- The `while (true)` of the kill handler, for at most so many rounds. -/
def stopDeamonLoop : Nat → Handler Unit
  | 0 => throw .unfinished
  | rounds + 1 => do
    if (← getApplication).isStartingUp then
      sendLine (getDeamonStateUpdate "worker.startup")
    if (← getApplication).isRunning then
      sendLine (getDeamonStateUpdate "worker.running")
      callShutdown
    if !(← getApplication).isRunning then
      sendLine (getDeamonStateUpdate "worker.stopped")
    else
      stopDeamonLoop rounds

/-- With requests one at a time the loop takes one round: a `shutdown` that returns has set
`exited`. -/
def parseDeamonStatePutMessage (doc : Json) : Handler Unit :=
  withState "The Put request needs a \"type\" member" doc fun state => do
    if state = "stopped" then
      stopDeamonLoop 1
      sendLine (getDeamonStateResponse "stopped")
      exitProcess
    else
      sendLine (getErrorResponse "Member \"data.state\" can only be \"stopped\"")

/-! ## 5. The dispatch -/

def parseOn (doc : Json) (k : String → Handler Unit) : Handler Unit := do
  if ← hasMember doc "on" then
    if (← member doc "on").isString then
      k (← getString (← member doc "on"))
    else
      sendLine (getErrorResponse "Member \"on\" needs to be a string")
  else
    sendLine (getErrorResponse "No member \"on\" provided.")

def parsePutMessage (env : Environment) (doc : Json) : Handler Unit :=
  parseOn doc fun on =>
    if on = "driver.state" then parseDriverStatePutMessage env.start doc
    else if on = "deamon.state" then parseDeamonStatePutMessage doc
    else if on = "connection.state" then parseConnectionStatePutMessage doc
    else if on = "config" then parseConfigPutMessage env doc
    else sendLine (getErrorResponse ("Unknown ressource of \"on\": " ++ on))

def parseGetMessage (doc : Json) : Handler Unit :=
  parseOn doc fun on =>
    if on = "adapter.names" then parseAdapterGetMessage doc
    else sendLine (getErrorResponse ("Unknown ressource of \"on\": " ++ on))

/-- `parseMessage`; the request is `none` when the line has a parse error. -/
def parseMessage (env : Environment) : Option Json → Handler Unit
  | none => sendLine (getErrorResponse
      "Invalid JSON. You need to provide a vaild JSON document!")
  | some requestDocument => do
    if ← hasMember requestDocument "type" then
      if (← member requestDocument "type").isString then
        let type ← getString (← member requestDocument "type")
        if type = "Get" then parseGetMessage requestDocument
        else if type = "Put" then parsePutMessage env requestDocument
        else if type = "Delete" then return
        else sendLine (getErrorResponse
          "Member \"type\" needs to be one of [\"Get\", \"Put\", \"Delete\"]")
      else
        sendLine (getErrorResponse "Member \"type\" needs to be a string")
    else
      sendLine (getErrorResponse "No member \"type\" found. Please provide one")

/-- How the handling of a line ends, and the world after it. -/
def handle (env : Environment) (request : Option Json) (w : World) : Except Halt Unit × World :=
  (parseMessage env request).exec w

/-! ## 6. Running the steps of a handler -/

@[simp] theorem exec_sendLine (line : Json) (w : World) :
    (sendLine line).exec w = (.ok (), w.send line) := rfl

@[simp] theorem exec_getApplication (w : World) : getApplication.exec w = (.ok w.app, w) := rfl

-- Each accessor returns where its precondition holds, and these are the preconditions.
theorem exec_hasMember {v : Json} (hv : v.isObject = true) (name : String) (w : World) :
    (hasMember v name).exec w = (.ok (v.member? name).isSome, w) := by
  rw [hasMember, if_pos hv, HaltingM.exec_pure]

theorem exec_member {v u : Json} {name : String} (h : v.member? name = some u) (w : World) :
    (member v name).exec w = (.ok u, w) := by
  rw [member, h, HaltingM.exec_pure]

theorem exec_getString {v : Json} {s : String} (h : v.string? = some s) (w : World) :
    (getString v).exec w = (.ok s, w) := by
  rw [getString, h, HaltingM.exec_pure]

-- A call of the application changes nothing else in the world.
theorem exec_callApplication {f : Application → Option Application} {w : World}
    {app : Application} (h : f w.app = some app) :
    (callApplication f).exec w = (.ok (), { w with app }) := by
  simp only [callApplication, HaltingM.exec_bind, HaltingM.exec_get, h, HaltingM.exec_set]

theorem exec_callApplication_none {f : Application → Option Application} {w : World}
    (h : f w.app = none) : (callApplication f).exec w = (.error .fault, w) := by
  simp only [callApplication, HaltingM.exec_bind, HaltingM.exec_get, h, HaltingM.exec_throw]

theorem exec_callInitRun {outcome : StartOutcome} {w : World} {successful : Bool}
    {app : Application} (h : w.app.initRun outcome = some (successful, app)) :
    (callInitRun outcome).exec w = (.ok successful, { w with app }) := by
  simp only [callInitRun, HaltingM.exec_bind, HaltingM.exec_get, h, HaltingM.exec_set,
    HaltingM.exec_pure]

theorem exec_callInitRun_none {outcome : StartOutcome} {w : World}
    (h : w.app.initRun outcome = none) : (callInitRun outcome).exec w = (.error .fault, w) := by
  simp only [callInitRun, HaltingM.exec_bind, HaltingM.exec_get, h, HaltingM.exec_throw]

/-- The common checks hand `data` on to the handler. -/
theorem withData_of_object {doc data : Json} (h : doc.member? "data" = some data)
    (hdata : data.isObject = true) (missing : String) (k : Json → Handler Unit) (w : World) :
    (withData missing doc k).exec w = (k data).exec w := by
  have hdoc := Json.isObject_of_member? h
  simp only [withData, HaltingM.exec_bind, exec_hasMember hdoc, h, Option.isSome_some,
    Bool.not_true, Bool.false_eq_true, if_false, exec_member h, hdata]

/-- Without an object `data` they answer with an error. -/
theorem withData_of_not_object {doc : Json} (hdoc : doc.isObject = true)
    (h : ∀ data, doc.member? "data" = some data → data.isObject = false) (missing : String)
    (k : Json → Handler Unit) (w : World) :
    ∃ errorMessage,
      (withData missing doc k).exec w = (.ok (), w.send (getErrorResponse errorMessage)) := by
  cases hm : doc.member? "data" with
  | none =>
    refine ⟨missing, ?_⟩
    simp only [withData, HaltingM.exec_bind, exec_hasMember hdoc, hm, Option.isSome_none,
      Bool.not_false, if_true, exec_sendLine]
  | some data =>
    refine ⟨"Member \"data\" needs to be an object", ?_⟩
    simp only [withData, HaltingM.exec_bind, exec_hasMember hdoc, hm, Option.isSome_some,
      Bool.not_true, Bool.false_eq_true, if_false, exec_member hm, h data hm, Bool.not_false,
      if_true, exec_sendLine]

/-- The common checks hand `data.state` on to the handler. -/
theorem withState_of_state {doc : Json} {state : String} (h : doc.state? = some state)
    (missing : String) (k : String → Handler Unit) (w : World) :
    (withState missing doc k).exec w = (k state).exec w := by
  obtain ⟨data, hdata, hstate⟩ := Option.bind_eq_some_iff.mp h
  obtain ⟨v, hv, hs⟩ := Option.bind_eq_some_iff.mp hstate
  have hobj := Json.isObject_of_member? hv
  have hstr : v.isString = true := by
    cases hb : v.isString with
    | true => rfl
    | false => rw [(Json.string?_eq_none_iff v).mpr hb] at hs; contradiction
  rw [withState, withData_of_object hdata hobj]
  simp only [HaltingM.exec_bind, exec_hasMember hobj, hv, Option.isSome_some, Bool.not_true,
    Bool.false_eq_true, if_false, exec_member hv, hstr, exec_getString hs]

/-- Without a string `data.state` they answer with an error. -/
theorem withState_of_none {doc : Json} (hdoc : doc.isObject = true) (h : doc.state? = none)
    (missing : String) (k : String → Handler Unit) (w : World) :
    ∃ errorMessage,
      (withState missing doc k).exec w = (.ok (), w.send (getErrorResponse errorMessage)) := by
  by_cases hdata : ∀ data, doc.member? "data" = some data → data.isObject = false
  · exact withData_of_not_object hdoc hdata missing _ w
  · obtain ⟨data, hdata, hobj⟩ : ∃ data, doc.member? "data" = some data ∧ data.isObject = true := by
      simpa using hdata
    rw [withState, withData_of_object hdata hobj]
    rw [Json.state?, hdata, Option.bind_some] at h
    cases hv : data.member? "state" with
    | none =>
      refine ⟨"Member \"data\" needs to have a member \"state\"", ?_⟩
      simp only [HaltingM.exec_bind, exec_hasMember hobj, hv, Option.isSome_none, Bool.not_false,
        if_true, exec_sendLine]
    | some v =>
      rw [Json.stringMember?, hv, Option.bind_some, Json.string?_eq_none_iff] at h
      refine ⟨"Member \"data.state\" needs to be a string", ?_⟩
      simp only [HaltingM.exec_bind, exec_hasMember hobj, hv, Option.isSome_some, Bool.not_true,
        Bool.false_eq_true, if_false, exec_member hv, h, Bool.not_false, if_true, exec_sendLine]

/-- The check of `on` hands its string on to the dispatch. -/
theorem parseOn_of_on {doc : Json} {on : String} (h : doc.stringMember? "on" = some on)
    (k : String → Handler Unit) (w : World) : (parseOn doc k).exec w = (k on).exec w := by
  obtain ⟨v, hv, hs⟩ := Option.bind_eq_some_iff.mp h
  have hstr : v.isString = true := by
    cases hb : v.isString with
    | true => rfl
    | false => rw [(Json.string?_eq_none_iff v).mpr hb] at hs; contradiction
  simp only [parseOn, HaltingM.exec_bind, exec_hasMember (Json.isObject_of_member? hv), hv,
    Option.isSome_some, if_true, exec_member hv, hstr, exec_getString hs]

-- Without a string `on` the dispatch answers with an error.
theorem parseOn_of_none {doc : Json} (hdoc : doc.isObject = true)
    (h : doc.stringMember? "on" = none) (k : String → Handler Unit) (w : World) :
    ∃ errorMessage,
      (parseOn doc k).exec w = (.ok (), w.send (getErrorResponse errorMessage)) := by
  cases hv : doc.member? "on" with
  | none =>
    refine ⟨"No member \"on\" provided.", ?_⟩
    simp only [parseOn, HaltingM.exec_bind, exec_hasMember hdoc, hv, Option.isSome_none,
      Bool.false_eq_true, if_false, exec_sendLine]
  | some v =>
    rw [Json.stringMember?, hv, Option.bind_some, Json.string?_eq_none_iff] at h
    refine ⟨"Member \"on\" needs to be a string", ?_⟩
    simp only [parseOn, HaltingM.exec_bind, exec_hasMember hdoc, hv, Option.isSome_some, if_true,
      exec_member hv, h, Bool.false_eq_true, if_false, exec_sendLine]

/-- The check of `type` hands its string on to the dispatch. -/
theorem parseMessage_of_type {doc : Json} {type : String}
    (h : doc.stringMember? "type" = some type) (env : Environment) (w : World) :
    (parseMessage env (some doc)).exec w =
      (if type = "Get" then parseGetMessage doc
        else if type = "Put" then parsePutMessage env doc
        else if type = "Delete" then return
        else sendLine (getErrorResponse
          "Member \"type\" needs to be one of [\"Get\", \"Put\", \"Delete\"]")).exec w := by
  obtain ⟨v, hv, hs⟩ := Option.bind_eq_some_iff.mp h
  have hstr : v.isString = true := by
    cases hb : v.isString with
    | true => rfl
    | false => rw [(Json.string?_eq_none_iff v).mpr hb] at hs; contradiction
  simp only [parseMessage, HaltingM.exec_bind, exec_hasMember (Json.isObject_of_member? hv), hv,
    Option.isSome_some, if_true, exec_member hv, hstr, exec_getString hs]

-- Without a string `type` an object is answered with an error.
theorem parseMessage_of_none {doc : Json} (hdoc : doc.isObject = true)
    (h : doc.stringMember? "type" = none) (env : Environment) (w : World) :
    ∃ errorMessage,
      (parseMessage env (some doc)).exec w = (.ok (), w.send (getErrorResponse errorMessage)) := by
  cases hv : doc.member? "type" with
  | none =>
    refine ⟨"No member \"type\" found. Please provide one", ?_⟩
    simp only [parseMessage, HaltingM.exec_bind, exec_hasMember hdoc, hv, Option.isSome_none,
      Bool.false_eq_true, if_false, exec_sendLine]
  | some v =>
    rw [Json.stringMember?, hv, Option.bind_some, Json.string?_eq_none_iff] at h
    refine ⟨"Member \"type\" needs to be a string", ?_⟩
    simp only [parseMessage, HaltingM.exec_bind, exec_hasMember hdoc, hv, Option.isSome_some,
      if_true, exec_member hv, h, Bool.false_eq_true, if_false, exec_sendLine]

/-- A Put reaches the handler of its resource. -/
theorem handle_put_on {doc : Json} {on : String} (h : doc.Asks "Put" on) (env : Environment)
    (w : World) :
    handle env (some doc) w =
      (if on = "driver.state" then parseDriverStatePutMessage env.start doc
        else if on = "deamon.state" then parseDeamonStatePutMessage doc
        else if on = "connection.state" then parseConnectionStatePutMessage doc
        else if on = "config" then parseConfigPutMessage env doc
        else sendLine (getErrorResponse ("Unknown ressource of \"on\": " ++ on))).exec w := by
  rw [handle, parseMessage_of_type h.1, if_neg (by decide), if_pos rfl, parsePutMessage,
    parseOn_of_on h.2]

end ConfigurationWorker

end NetShare
