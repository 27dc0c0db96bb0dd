import NetShare.ConfigPut
import NetShare.DriverState

/-!
# Which requests are answered

Each handler has to remember to send one response.  For every request object this module says what
`parseMessage` sends, and which requests get no response or two.
-/

namespace NetShare

open Reasoning ConfigurationWorker

/-! ## 1. Being answered -/

/-- The handling of a line returns, or ends the process on purpose, after any number of updates and
then one response. -/
def AnsweredOnce (result : Except Halt Unit × World) (w : World) : Prop :=
  (result.1 = .ok () ∨ result.1 = .error .exit) ∧
    ∃ updates response, result.2.sent = w.sent ++ updates ++ [response] ∧
      (∀ update ∈ updates, update.isUpdate = true) ∧ response.isResponse = true

/-- The requests that are not answered once: `Get` of `adapter.names` and every `Delete`, another
connection state than "closed", a config Put with an object `data`, all without a response; stopping
a running driver, with two; and without one a kill whose `shutdown` uses what is not there, and a
start that uses the names it has deleted. -/
def Unanswered (outcome : StartOutcome) (doc : Json) (app : Application) : Prop :=
  doc.Asks "Get" "adapter.names" ∨
  doc.stringMember? "type" = some "Delete" ∨
  (doc.Asks "Put" "connection.state" ∧ ∃ state, doc.state? = some state ∧ state ≠ "closed") ∨
  (doc.Asks "Put" "config" ∧ ∃ data, doc.member? "data" = some data ∧ data.isObject = true) ∨
  (doc.Asks "Put" "driver.state" ∧ doc.state? = some "stopped" ∧
    app.startingUp = false ∧ app.exited = false) ∨
  (doc.Asks "Put" "driver.state" ∧ doc.state? = some "running" ∧
    app.startingUp = false ∧ app.exited = true ∧ app.LosesNames outcome) ∨
  (doc.Asks "Put" "deamon.state" ∧ doc.state? = some "stopped" ∧
    app.exited = false ∧ ¬ app.Started)

theorem answeredOnce_of_response {w w' : World} {response : Json} {ending : Except Halt Unit}
    (hend : ending = .ok () ∨ ending = .error .exit) (updates : List Json)
    (hsent : w'.sent = w.sent ++ updates ++ [response])
    (hupdates : ∀ update ∈ updates, update.isUpdate = true)
    (hresponse : response.isResponse = true) :
    AnsweredOnce (ending, w') w :=
  ⟨hend, updates, response, hsent, hupdates, hresponse⟩

/-- A single response is an answer. -/
theorem answeredOnce_send (w : World) {response : Json} (h : response.isResponse = true) :
    AnsweredOnce (.ok (), w.send response) w :=
  answeredOnce_of_response (.inl rfl) [] (by simp) (by simp) h

-- The two ways in which a returning handler misses: no line at all, or two responses.
theorem not_answeredOnce_of_silent {result : Except Halt Unit × World} {w : World}
    (h : result.2.sent = w.sent) : ¬ AnsweredOnce result w := by
  rintro ⟨-, updates, response, hsent, -, -⟩
  have hlen := congrArg List.length (h.symm.trans hsent)
  simp only [List.length_append, List.length_singleton] at hlen
  omega

theorem not_answeredOnce_of_two {result : Except Halt Unit × World} {w : World}
    {first second : Json}
    (h : result.2.sent = w.sent ++ [first, second]) (hfirst : first.isUpdate = false) :
    ¬ AnsweredOnce result w := by
  rintro ⟨-, updates, response, hsent, hupdates, -⟩
  rw [h, List.append_assoc, List.append_cancel_left_eq] at hsent
  have hmem : first ∈ updates := by
    cases updates with
    | nil => simp at hsent
    | cons u us =>
      rw [List.cons_append, List.cons.injEq] at hsent
      exact hsent.1 ▸ List.mem_cons_self
  have := hupdates first hmem
  rw [hfirst] at this
  contradiction

/-! ## 2. The kill handler -/

/-- The updates that a kill sends in its round. -/
def deamonUpdates (app : Application) : List Json :=
  (if app.startingUp then [getDeamonStateUpdate "worker.startup"] else []) ++
    (if app.exited then [] else [getDeamonStateUpdate "worker.running"]) ++
    [getDeamonStateUpdate "worker.stopped"]

-- The client tells these lines from the answer by their type.
theorem isUpdate_of_mem_deamonUpdates {app : Application} {update : Json}
    (h : update ∈ deamonUpdates app) : update.isUpdate = true := by
  simp only [deamonUpdates, List.mem_append, List.mem_singleton] at h
  rcases h with (h | h) | rfl
  · split at h
    · rw [List.mem_singleton.mp h]
      rfl
    · cases h
  · split at h
    · cases h
    · rw [List.mem_singleton.mp h]
      rfl
  · rfl

/-- If its `shutdown` comes back, a kill takes one round, however many it is given. -/
theorem exec_stopDeamonLoop {w : World} {app' : Application} (h : w.app.shutdown = some app')
    (rounds : Nat) :
    (stopDeamonLoop (rounds + 1)).exec w =
      (.ok (), { w with app := app', sent := w.sent ++ deamonUpdates w.app }) := by
  have hex' := (Application.shutdown_flags h).1
  have hdown : ∀ w₁ : World, w₁.app = w.app →
      callShutdown.exec w₁ = (.ok (), { w₁ with app := app' }) :=
    fun w₁ hw₁ => exec_callApplication (hw₁ ▸ h)
  rw [stopDeamonLoop]
  cases hex : w.app.exited with
  | true =>
    rw [Application.shutdown_of_exited hex, Option.some.injEq] at h
    subst h
    cases hup : w.app.startingUp <;>
      simp [HaltingM.exec_bind, Application.isStartingUp, Application.isRunning, deamonUpdates,
        hup, hex, World.send]
  | false =>
    cases hup : w.app.startingUp <;>
      simp [HaltingM.exec_bind, Application.isStartingUp, Application.isRunning, deamonUpdates,
        hup, hex, hex', hdown, World.send]

/-- Else the two updates before the `shutdown` have been sent. -/
theorem exec_stopDeamonLoop_fault {w : World} (h : w.app.shutdown = none) (rounds : Nat) :
    (stopDeamonLoop (rounds + 1)).exec w =
      (.error .fault, { w with sent := w.sent ++
        ((if w.app.startingUp then [getDeamonStateUpdate "worker.startup"] else []) ++
          [getDeamonStateUpdate "worker.running"]) }) := by
  have hdown : ∀ w₁ : World, w₁.app = w.app → callShutdown.exec w₁ = (.error .fault, w₁) :=
    fun w₁ hw₁ => exec_callApplication_none (hw₁ ▸ h)
  have hex : w.app.exited = false := by
    cases hex : w.app.exited with
    | false => rfl
    | true =>
      rw [Application.shutdown_of_exited hex] at h
      contradiction
  rw [stopDeamonLoop]
  cases hup : w.app.startingUp <;>
    simp [HaltingM.exec_bind, Application.isStartingUp, Application.isRunning, hup, hex, hdown,
      World.send]

/-- On the way out `nsShutdown` finds the driver stopped. -/
theorem exec_exitProcess {w : World} (h : w.app.exited = true) :
    exitProcess.exec w = (.error .exit, w) := by
  have hhandlers : ∀ n, (runExitHandlers n).exec w = (.ok (), w) := by
    intro n
    induction n with
    | zero => rfl
    | succ n ih =>
      have hdown : callShutdown.exec w = (.ok (), w) :=
        exec_callApplication (Application.shutdown_of_exited h)
      rw [runExitHandlers, HaltingM.exec_bind_of_ok hdown, ih]
  simp only [exitProcess, HaltingM.exec_bind, exec_getApplication, hhandlers, HaltingM.exec_throw]

/-- A kill whose `shutdown` comes back ends the process. -/
theorem deamonState_exit {doc : Json} (h : doc.state? = some "stopped") {w : World}
    {app' : Application} (hdown : w.app.shutdown = some app') :
    (parseDeamonStatePutMessage doc).exec w =
      (.error .exit, { w with app := app', sent := w.sent ++ deamonUpdates w.app ++
        [getDeamonStateResponse "stopped"] }) := by
  rw [parseDeamonStatePutMessage, withState_of_state h, if_pos rfl,
    HaltingM.exec_bind_of_ok (exec_stopDeamonLoop hdown 0),
    HaltingM.exec_bind_of_ok (exec_sendLine _ _),
    exec_exitProcess (Application.shutdown_flags hdown).1]
  rfl

-- Something that `shutdown` uses is not there, so the client gets updates and no answer.
theorem deamonState_fault {doc : Json} (h : doc.state? = some "stopped") {w : World}
    (hdown : w.app.shutdown = none) :
    (parseDeamonStatePutMessage doc).exec w =
      (.error .fault, { w with sent := w.sent ++
        ((if w.app.startingUp then [getDeamonStateUpdate "worker.startup"] else []) ++
          [getDeamonStateUpdate "worker.running"]) }) := by
  rw [parseDeamonStatePutMessage, withState_of_state h, if_pos rfl,
    HaltingM.exec_bind_of_error (exec_stopDeamonLoop_fault hdown 0)]

/-- A kill sends its updates and one response, unless its `shutdown` uses what is not there. -/
theorem deamonState_answeredOnce_iff {doc : Json} (h : doc.state? = some "stopped") (w : World) :
    AnsweredOnce ((parseDeamonStatePutMessage doc).exec w) w ↔
      (w.app.exited = false → w.app.Started) := by
  rw [← Application.shutdown_isSome_iff]
  cases hdown : w.app.shutdown with
  | none =>
    rw [deamonState_fault h hdown]
    refine iff_of_false (fun hans => ?_) (by simp)
    rcases hans.1 with hend | hend <;> cases hend
  | some app' =>
    rw [deamonState_exit h hdown]
    refine iff_of_true ?_ rfl
    exact answeredOnce_of_response (.inr rfl) (deamonUpdates w.app) rfl
      (fun _ => isUpdate_of_mem_deamonUpdates) rfl

/-! ## 3. The config handler -/

/-- A config Put with an object `data` sends nothing, whether it is stored or throws. -/
theorem config_silent {doc data : Json} (h : doc.member? "data" = some data)
    (hdata : data.isObject = true) (env : Environment) (w : World) :
    ((parseConfigPutMessage env doc).exec w).2.sent = w.sent := by
  rw [exec_configPut h hdata]
  dsimp only
  split
  · rfl
  · split <;> rfl

/-! ## 4. The driver handler -/

/-- A start is answered once, after its update, unless it uses deleted names. -/
theorem run_answeredOnce_iff {doc : Json} (h : doc.state? = some "running")
    (outcome : StartOutcome) (w : World) :
    AnsweredOnce ((parseDriverStatePutMessage outcome doc).exec w) w ↔
      ¬ (w.app.startingUp = false ∧ w.app.exited = true ∧ w.app.LosesNames outcome) := by
  cases hup : w.app.startingUp with
  | true =>
    rw [driverState_startingUp h (.inl rfl) hup]
    exact iff_of_true (answeredOnce_send w rfl) (by simp)
  | false =>
    cases hex : w.app.exited with
    | false =>
      rw [driverState_run_running h hup hex]
      exact iff_of_true (answeredOnce_send w rfl) (by simp)
    | true =>
      by_cases hlost : w.app.LosesNames outcome
      · rw [driverState_run_fault h hup hex (Application.initRun_eq_none_iff.mpr hlost)]
        refine iff_of_false (fun hans => ?_) (by simp [hlost])
        rcases hans.1 with hend | hend <;> cases hend
      · refine iff_of_true ?_ (by simp [hlost])
        obtain ⟨successful, app₁, hinit⟩ := Application.exists_initRun hlost
        cases hsucc : outcome.succeeds with
        | true =>
          obtain ⟨app', -, hexec, -⟩ := driverState_run_succeeds h hup hex hinit hsucc
          rw [hexec]
          exact answeredOnce_of_response (.inl rfl) [getDriverStateUpdate "startup"] rfl
            (by simp) rfl
        | false =>
          rw [driverState_run_fails h hup hex hinit hsucc]
          exact answeredOnce_of_response (.inl rfl) [getDriverStateUpdate "startup"] rfl
            (by simp) rfl

/-- A stop is answered once unless there is a driver to stop. -/
theorem stop_answeredOnce_iff {doc : Json} (h : doc.state? = some "stopped")
    (outcome : StartOutcome) (w : World) :
    AnsweredOnce ((parseDriverStatePutMessage outcome doc).exec w) w ↔
      ¬ (w.app.startingUp = false ∧ w.app.exited = false) := by
  cases hup : w.app.startingUp with
  | true =>
    rw [driverState_startingUp h (.inr rfl) hup]
    exact iff_of_true (answeredOnce_send w rfl) (by simp)
  | false =>
    cases hex : w.app.exited with
    | true =>
      rw [driverState_stop_stopped h hup hex]
      exact iff_of_true (answeredOnce_send w rfl) (by simp)
    | false =>
      refine iff_of_false ?_ (by simp)
      cases hdown : w.app.shutdown with
      | none =>
        rw [driverState_stop_fault h hup hex hdown]
        rintro ⟨hend | hend, -⟩ <;> cases hend
      | some app' =>
        rw [driverState_stop_running h hup hex hdown]
        have hsent : ((w.send (getDriverStateResponse "running")).send
            (getDriverStateResponse "stopped")).sent = w.sent ++
              [getDriverStateResponse "running", getDriverStateResponse "stopped"] := by
          simp
        exact not_answeredOnce_of_two hsent rfl

/-- The `driver.state` Puts that are not answered once are these two. -/
theorem driverState_answeredOnce_iff {doc : Json} (hdoc : doc.isObject = true)
    (outcome : StartOutcome) (w : World) :
    AnsweredOnce ((parseDriverStatePutMessage outcome doc).exec w) w ↔
      ¬ ((doc.state? = some "stopped" ∧ w.app.startingUp = false ∧ w.app.exited = false) ∨
        (doc.state? = some "running" ∧ w.app.startingUp = false ∧ w.app.exited = true ∧
          w.app.LosesNames outcome)) := by
  cases hstate : doc.state? with
  | none =>
    obtain ⟨errorMessage, herr⟩ := withState_of_none hdoc hstate _ _ w
    rw [parseDriverStatePutMessage, herr]
    exact iff_of_true (answeredOnce_send w rfl) (by simp)
  | some state =>
    by_cases hrunning : state = "running"
    · subst hrunning
      rw [run_answeredOnce_iff hstate]
      simp
    · by_cases hstopped : state = "stopped"
      · subst hstopped
        rw [stop_answeredOnce_iff hstate]
        simp
      · rw [parseDriverStatePutMessage, withState_of_state hstate, if_neg hrunning,
          if_neg hstopped]
        exact iff_of_true (answeredOnce_send w rfl) (by simp [hstopped, hrunning])

/-! ## 5. The dispatch -/

-- The handler has no branch for another state than "closed".
theorem connectionState_answeredOnce_iff {doc : Json} (hdoc : doc.isObject = true) (w : World) :
    AnsweredOnce ((parseConnectionStatePutMessage doc).exec w) w ↔
      ¬ ∃ state, doc.state? = some state ∧ state ≠ "closed" := by
  cases hstate : doc.state? with
  | none =>
    obtain ⟨errorMessage, herr⟩ := withState_of_none hdoc hstate _ _ w
    rw [parseConnectionStatePutMessage, herr]
    exact iff_of_true (answeredOnce_send w rfl) (by simp)
  | some state =>
    rw [parseConnectionStatePutMessage, withState_of_state hstate]
    by_cases hclosed : state = "closed"
    · subst hclosed
      have hsent : (({ w with running := false } : World).send closedResponse).sent =
          w.sent ++ [] ++ [closedResponse] := by simp
      exact iff_of_true (answeredOnce_of_response (.inl rfl) [] hsent (by simp) rfl) (by simp)
    · rw [if_neg hclosed]
      exact iff_of_false (not_answeredOnce_of_silent rfl) (by simp [hclosed])

-- Four resources, each with its own exceptions; any other one is answered with an error.
theorem parsePutMessage_answeredOnce_iff (env : Environment) {doc : Json}
    (hdoc : doc.isObject = true) (htype : doc.stringMember? "type" = some "Put") (w : World) :
    AnsweredOnce ((parsePutMessage env doc).exec w) w ↔ ¬ Unanswered env.start doc w.app := by
  unfold Unanswered Json.Asks
  rw [htype, parsePutMessage]
  cases hon : doc.stringMember? "on" with
  | none =>
    obtain ⟨errorMessage, herr⟩ := parseOn_of_none hdoc hon _ w
    rw [herr]
    exact iff_of_true (answeredOnce_send w rfl) (by simp)
  | some on =>
    rw [parseOn_of_on hon]
    by_cases hdriver : on = "driver.state"
    · subst hdriver
      rw [if_pos rfl, driverState_answeredOnce_iff hdoc]
      simp
    by_cases hdeamon : on = "deamon.state"
    · subst hdeamon
      rw [if_neg (by decide), if_pos rfl]
      by_cases hstate : doc.state? = some "stopped"
      · rw [deamonState_answeredOnce_iff hstate]
        simp [hstate]
      · refine iff_of_true ?_ (by simp [hstate])
        cases hs : doc.state? with
        | none =>
          obtain ⟨errorMessage, herr⟩ := withState_of_none hdoc hs _ _ w
          rw [parseDeamonStatePutMessage, herr]
          exact answeredOnce_send w rfl
        | some state =>
          have hne : state ≠ "stopped" := fun heq => hstate (heq ▸ hs)
          rw [parseDeamonStatePutMessage, withState_of_state hs, if_neg hne]
          exact answeredOnce_send w rfl
    by_cases hconnection : on = "connection.state"
    · subst hconnection
      rw [if_neg (by decide), if_neg (by decide), if_pos rfl,
        connectionState_answeredOnce_iff hdoc]
      simp
    by_cases hconfig : on = "config"
    · subst hconfig
      rw [if_neg (by decide), if_neg (by decide), if_neg (by decide), if_pos rfl]
      by_cases hdata : ∃ data, doc.member? "data" = some data ∧ data.isObject = true
      · obtain ⟨data, hd, hobj⟩ := hdata
        apply iff_of_false (not_answeredOnce_of_silent (config_silent hd hobj env w))
        simp [hd, hobj]
      · have hnot : ∀ data, doc.member? "data" = some data → data.isObject = false := by
          intro data hd
          cases hobj : data.isObject with
          | false => rfl
          | true => exact absurd ⟨data, hd, hobj⟩ hdata
        obtain ⟨errorMessage, herr⟩ := withData_of_not_object hdoc hnot _ _ w
        rw [parseConfigPutMessage, herr]
        apply iff_of_true (answeredOnce_send w rfl)
        simpa using hnot
    · rw [if_neg hdriver, if_neg hdeamon, if_neg hconnection, if_neg hconfig]
      apply iff_of_true (answeredOnce_send w rfl)
      simp [hdriver, hdeamon, hconnection, hconfig]

-- The only resource is `adapter.names`, and its answer is never sent.
theorem parseGetMessage_answeredOnce_iff (env : Environment) {doc : Json}
    (hdoc : doc.isObject = true) (htype : doc.stringMember? "type" = some "Get") (w : World) :
    AnsweredOnce ((parseGetMessage doc).exec w) w ↔ ¬ Unanswered env.start doc w.app := by
  unfold Unanswered Json.Asks
  rw [htype, parseGetMessage]
  cases hon : doc.stringMember? "on" with
  | none =>
    obtain ⟨errorMessage, herr⟩ := parseOn_of_none hdoc hon _ w
    rw [herr]
    exact iff_of_true (answeredOnce_send w rfl) (by simp)
  | some on =>
    rw [parseOn_of_on hon]
    by_cases hadapter : on = "adapter.names"
    · subst hadapter
      rw [if_pos rfl]
      exact iff_of_false (not_answeredOnce_of_silent rfl) (by simp)
    · rw [if_neg hadapter]
      exact iff_of_true (answeredOnce_send w rfl) (by simp [hadapter])

/-- **Every request object but those of the listed kinds is answered exactly once.** -/
theorem handle_answeredOnce_iff (env : Environment) (members : List (String × Json)) (w : World) :
    AnsweredOnce (handle env (some (.object members)) w) w ↔
      ¬ Unanswered env.start (.object members) w.app := by
  have hdoc : (Json.object members).isObject = true := rfl
  generalize Json.object members = doc at hdoc
  rw [handle]
  cases htype : doc.stringMember? "type" with
  | none =>
    obtain ⟨errorMessage, herr⟩ := parseMessage_of_none hdoc htype env w
    rw [herr]
    exact iff_of_true (answeredOnce_send w rfl) (by simp [Unanswered, Json.Asks, htype])
  | some type =>
    rw [parseMessage_of_type htype]
    by_cases hget : type = "Get"
    · subst hget
      rw [if_pos rfl]
      exact parseGetMessage_answeredOnce_iff env hdoc htype w
    by_cases hput : type = "Put"
    · subst hput
      rw [if_neg (by decide), if_pos rfl]
      exact parsePutMessage_answeredOnce_iff env hdoc htype w
    by_cases hdelete : type = "Delete"
    · subst hdelete
      rw [if_neg (by decide), if_neg (by decide), if_pos rfl]
      exact iff_of_false (not_answeredOnce_of_silent rfl) (by simp [Unanswered, htype])
    · rw [if_neg hget, if_neg hput, if_neg hdelete]
      apply iff_of_true (answeredOnce_send w rfl)
      simp [Unanswered, Json.Asks, htype, hget, hput, hdelete]

/-- The request with which the command line asks for the adapters gets no answer at all. -/
theorem adapterNames_unanswered :
    ¬ ∀ (env : Environment) (members : List (String × Json)) (w : World),
      AnsweredOnce (handle env (some (.object members)) w) w := by
  intro hclaim
  exact not_answeredOnce_of_silent rfl (hclaim (environmentOf goodStart)
    [("type", .string "Get"), ("on", .string "adapter.names")] {})

end NetShare
