import NetShare.Dialogue
import NetShare.Lines

/-!
# The dialogues byte by byte

On a connection there are bytes, not lines.  `SendLine` puts a line with its newline into the
stream, `recv` takes one byte out, and a line is handled when its newline has come in.  Clients and
daemon are those of the dialogues, which were modelled with whole lines in flight; what their text
is like is known of rapidjson.
-/

namespace NetShare

open Reasoning ConfigurationWorker

/-! ## 1. The lines of the protocol -/

/-- The values of `crashReason` that the code assigns. -/
def crashReasons : List String := ["", "NO_ACTIVATED_ADAPTERS"]

/-- What the daemon sends to clients that make these four requests. -/
def answerLines : List Json :=
  ["startup", "running", "stopped"].map (fun state => getDriverStateResponse state) ++
    crashReasons.map (fun reason => getDriverStateResponse "crashed" true reason) ++
    ["worker.startup", "worker.running", "worker.stopped"].map getDeamonStateUpdate ++
    [getDriverStateUpdate "startup", closedResponse]

def protocolLines : List Json :=
  [Request.run, .stop, .kill, .close].map Request.line ++ answerLines

/-- The request that `parseMessage` makes of a document, if it is one of the four. -/
def request? (doc : Json) : Option Request :=
  if doc.stringMember? "type" = some "Put" then
    match doc.stringMember? "on", doc.state? with
    | some "driver.state", some "running" => some .run
    | some "driver.state", some "stopped" => some .stop
    | some "deamon.state", some "stopped" => some .kill
    | some "connection.state", some "closed" => some .close
    | _, _ => none
  else none

theorem request?_line (r : Request) : request? r.line = some r := by cases r <;> decide

theorem line_mem_protocolLines (r : Request) : r.line ∈ protocolLines := by
  apply List.mem_append_left answerLines
  apply List.mem_map_of_mem
  cases r <;> decide

/-- What `Writer` writes for a document, and what `Parse` makes of a text. -/
structure Rapidjson where
  write : Json → List UInt8
  parse : List UInt8 → Option Json

namespace Rapidjson

/-- The text of a document is one line, since `Writer` puts no white space between the tokens and
escapes that in the strings, and `Parse` reads the document back, skipping white space behind it. -/
structure ReadsBack (rapidjson : Rapidjson) : Prop where
  oneLine : ∀ doc ∈ protocolLines, Socket.newline ∉ rapidjson.write doc
  readBack : ∀ doc ∈ protocolLines,
    rapidjson.parse (Socket.sendLine (rapidjson.write doc)) = some doc

end Rapidjson

/-! ## 2. Both ends -/

/-- One direction of a connection: what `ReceiveLine` has in `ret`, and the bytes in flight. -/
structure Link where
  ret : List UInt8 := []
  stream : List UInt8 := []

namespace Link

def sendLine (link : Link) (line : List UInt8) : Link :=
  { link with stream := link.stream ++ Socket.sendLine line }

def sendLines (link : Link) (lines : List (List UInt8)) : Link := lines.foldl sendLine link

/-- A round of the loop of `ReceiveLine`, if there is a byte: the line that it returns, or `none` if
it goes on. -/
def recv (link : Link) : Option (Option (List UInt8) × Link) :=
  match link.stream with
  | [] => none
  | r :: stream =>
    let ret := link.ret ++ [r]
    if r = Socket.newline then some (some ret, { ret := [], stream })
    else some (none, { ret, stream })

/-- The connection can end this way: in good order only behind the last byte. -/
def CanEnd (link : Link) (ending : Socket.Ending) : Prop :=
  ending = .closed → link.stream = []

instance (link : Link) (ending : Socket.Ending) : Decidable (link.CanEnd ending) :=
  inferInstanceAs (Decidable (_ → _))

-- The rounds are those of `receiveLoop`.
theorem receiveLoop_recv {link link' : Link} {line : Option (List UInt8)}
    (h : link.recv = some (line, link')) (ending : Socket.Ending) :
    Socket.receiveLoop ending link.ret link.stream =
      match line with
      | some line => (line, link'.stream)
      | none => Socket.receiveLoop ending link'.ret link'.stream := by
  obtain ⟨ret, stream⟩ := link
  cases stream with
  | nil => contradiction
  | cons r stream =>
    simp only [recv] at h
    split at h
    next hr =>
      cases h
      exact if_pos hr
    next hr =>
      cases h
      exact if_neg hr

theorem sendLines_ret (link : Link) (lines : List (List UInt8)) :
    (link.sendLines lines).ret = link.ret := by
  induction lines generalizing link with
  | nil => rfl
  | cons line lines ih => exact ih (link.sendLine line)

theorem sendLines_stream (link : Link) (lines : List (List UInt8)) :
    (link.sendLines lines).stream = link.stream ++ frame Socket.newline lines := by
  induction lines generalizing link with
  | nil => exact (List.append_nil _).symm
  | cons line lines ih =>
    have hrest := ih (link.sendLine line)
    rw [sendLine, Socket.sendLine, List.append_assoc, List.append_assoc,
      List.singleton_append, ← frame_cons] at hrest
    exact hrest

end Link

/-- The clients and the daemon with the bytes between them. -/
structure Wire (k : Nat) where
  app : Application := {}
  alive : Bool := true
  pc : Fin k → ConnectionPc := fun _ => .receive
  client : Fin k → Client := fun _ => {}
  toDaemon : Fin k → Link := fun _ => {}
  toClient : Fin k → Link := fun _ => {}

inductive WireLabel (k : Nat) where
  | clientSend (i : Fin k)
  | clientRecv (i : Fin k)
  | clientEnd (i : Fin k) (ending : Socket.Ending)
  | daemonRecv (i : Fin k)
  | daemonEnd (i : Fin k) (ending : Socket.Ending)
  | daemonStep (i : Fin k) (outcome : StartOutcome)

/-- The connection at which the step is taken. -/
def WireLabel.connection {k : Nat} : WireLabel k → Fin k
  | .clientSend i | .clientRecv i | .clientEnd i _ | .daemonRecv i | .daemonEnd i _
  | .daemonStep i _ => i

/-- A round of the client's loop with what `ReceiveLine` returned. -/
def Client.readLine (rapidjson : Rapidjson) (command : Command) (c : Client)
    (line : List UInt8) : Client :=
  match rapidjson.parse line with
  | none => c.goto (.left none)
  | some doc => if line = [] then c.goto (.left none) else c.receiveLine command doc

namespace Wire

variable {k : Nat} (rapidjson : Rapidjson)

def withClient (w : Wire k) (i : Fin k) (c : Client) : Wire k :=
  { w with client := Function.update w.client i c }

def withLines (w : Wire k) (i : Fin k) (link : Link) : Wire k :=
  { w with toClient := Function.update w.toClient i link }

def withRequests (w : Wire k) (i : Fin k) (link : Link) : Wire k :=
  { w with toDaemon := Function.update w.toDaemon i link }

def sendRequest (w : Wire k) (i : Fin k) (r : Request) : Wire k :=
  w.withRequests i ((w.toDaemon i).sendLine (rapidjson.write r.line))

/-- The daemon, with nothing sent yet. -/
def daemon (w : Wire k) : Daemon k where
  app := w.app
  alive := w.alive
  pc := w.pc

/-- The daemon has taken a step, and what it has sent goes into the streams. -/
def put (w : Wire k) (d : Daemon k) : Wire k :=
  { w with
    app := d.app
    alive := d.alive
    pc := d.pc
    toClient := fun i => (w.toClient i).sendLines ((d.toClient i).map rapidjson.write) }

/-- The loop of `ConfigurationWorker::run` with what `ReceiveLine` returned; only the four requests
are modelled. -/
def readLine (w : Wire k) (i : Fin k) (line : List UInt8) : Option (Wire k) :=
  if line = [] then (w.daemon.next (.disconnect i)).map (w.put rapidjson)
  else do
    let r ← request? (← rapidjson.parse line)
    (w.daemon.next (.request i r)).map (w.put rapidjson)

/-- The daemon's end of the connection is closed, by its thread or with the process. -/
def Ended (w : Wire k) (i : Fin k) : Prop := w.alive = false ∨ w.pc i = .closed

instance (w : Wire k) (i : Fin k) : Decidable (w.Ended i) :=
  decidable_of_iff (w.alive = false ∨ (w.pc i matches .closed) = true) <| by
    unfold Ended
    cases w.pc i <;> simp

/-- The daemon's thread is in `ReceiveLine`. -/
def receiving (w : Wire k) (i : Fin k) : Bool := w.alive && w.pc i matches .receive

def next (command : Fin k → Command) (w : Wire k) : WireLabel k → Option (Wire k)
  | .clientSend i =>
    match (w.client i).pc with
    | .sendRequest =>
      some ((w.sendRequest rapidjson i (command i).request).withClient i
        (((w.client i).print (command i).announce).goto .receive))
    | .sendClose =>
      some ((w.sendRequest rapidjson i .close).withClient i ((w.client i).goto .receive))
    | _ => none
  | .clientRecv i =>
    match (w.client i).pc with
    | .receive => (w.toClient i).recv.map fun
      | (none, link) => w.withLines i link
      | (some line, link) =>
        (w.withLines i link).withClient i ((w.client i).readLine rapidjson (command i) line)
    | _ => none
  | .clientEnd i ending =>
    match (w.client i).pc with
    | .receive =>
      if w.Ended i ∧ (w.toClient i).CanEnd ending then
        some (w.withClient i ((w.client i).readLine rapidjson (command i)
          (Socket.lastLine (w.toClient i).ret ending)))
      else none
    | _ => none
  | .daemonRecv i =>
    if w.receiving i then (w.toDaemon i).recv.bind fun
      | (none, link) => some (w.withRequests i link)
      | (some line, link) => (w.withRequests i link).readLine rapidjson i line
    else none
  | .daemonEnd i ending =>
    match (w.client i).pc with
    | .left _ =>
      if w.receiving i ∧ (w.toDaemon i).CanEnd ending then
        w.readLine rapidjson i (Socket.lastLine (w.toDaemon i).ret ending)
      else none
    | _ => none
  | .daemonStep i outcome => (w.daemon.next (.step i outcome)).map (w.put rapidjson)

end Wire

/-- `k` clients and the daemon, whose application may be in any state when they connect; a crash
that it remembers has one of the reasons of the code. -/
def wireMachine {k : Nat} (rapidjson : Rapidjson) (command : Fin k → Command) :
    Machine (Wire k) (WireLabel k) where
  init w := ∃ app : Application, app.crashReason ∈ crashReasons ∧ w = { app }
  next := Wire.next rapidjson command

/-! ## 3. What the daemon says -/

theorem response_mem {state : String} (h : state ∈ ["startup", "running", "stopped"]) :
    getDriverStateResponse state ∈ answerLines := by
  apply List.mem_append_left
  apply List.mem_append_left
  apply List.mem_append_left
  exact List.mem_map_of_mem h

theorem crashed_mem {reason : String} (h : reason ∈ crashReasons) :
    getDriverStateResponse "crashed" true reason ∈ answerLines := by
  apply List.mem_append_left
  apply List.mem_append_left
  apply List.mem_append_right
  exact List.mem_map_of_mem h

theorem update_mem {state : String}
    (h : state ∈ ["worker.startup", "worker.running", "worker.stopped"]) :
    getDeamonStateUpdate state ∈ answerLines := by
  apply List.mem_append_left
  apply List.mem_append_right
  exact List.mem_map_of_mem h

theorem startup_mem : getDriverStateUpdate "startup" ∈ answerLines :=
  List.mem_append_right _ List.mem_cons_self

theorem closed_mem : closedResponse ∈ answerLines :=
  List.mem_append_right _ (List.mem_cons_of_mem _ List.mem_cons_self)

namespace Thread

/-- It has sent lines of the protocol only, and a crash has one of the reasons of the code. -/
structure Spoken (t : Thread) : Prop where
  reason : t.app.crashReason ∈ crashReasons
  sent : ∀ line ∈ t.sent, line ∈ answerLines

namespace Spoken

variable {t t' : Thread}

theorem goto (h : t.Spoken) (pc : ConnectionPc) : (t.goto pc).Spoken := ⟨h.reason, h.sent⟩

theorem send (h : t.Spoken) {line : Json} (hline : line ∈ answerLines) : (t.send line).Spoken := by
  refine ⟨h.reason, fun l hl => ?_⟩
  rcases List.mem_append.mp hl with hl | hl
  · exact h.sent l hl
  · rw [List.mem_singleton.mp hl]
    exact hline

theorem update (h : t.Spoken) {app : Option Application} (pc : ConnectionPc)
    (happ : ∀ a, app = some a → a.crashReason ∈ crashReasons) : (t.update app pc).Spoken := by
  cases app with
  | none => exact ⟨h.reason, h.sent⟩
  | some app => exact ⟨happ app rfl, h.sent⟩

theorem update_flags (h : t.Spoken) {app : Option Application} (pc : ConnectionPc)
    (happ : ∀ a, app = some a → t.app.SameFlags a) : (t.update app pc).Spoken := by
  apply h.update pc
  intro app happ'
  rw [(happ app happ').crashReason]
  exact h.reason

theorem stepInitRun (h : t.Spoken) (outcome : StartOutcome) (pc : InitRunPc) :
    (t.stepInitRun outcome pc).Spoken := by
  cases pc with
  | clearCrash => exact ⟨List.mem_cons_self, h.sent⟩
  | readConfig =>
    unfold Thread.stepInitRun
    dsimp only
    split
    · exact ⟨h.reason, h.sent⟩
    · apply h.update
      intro app happ
      obtain ⟨-, happ⟩ := Option.ite_none_left_eq_some.mp happ
      rw [← Option.some.inj happ]
      exact h.reason
  | checkAdapters =>
    unfold Thread.stepInitRun
    dsimp only
    split
    · apply h.update
      intro app happ
      obtain ⟨app', -, rfl⟩ := Option.map_eq_some_iff.mp happ
      exact List.mem_cons_of_mem _ List.mem_cons_self
    · exact h.goto _
  | initializeWintun =>
    unfold Thread.stepInitRun
    dsimp only
    split
    · exact h.goto _
    · exact h.goto _
  | generateUDPConfigs =>
    apply h.update
    intro app happ
    obtain ⟨app', happ', rfl⟩ := Option.map_eq_some_iff.mp happ
    have hreason := (Application.withConf_flags happ').crashReason
    exact hreason ▸ h.reason
  | getAdapterHandle => exact h.update_flags _ fun _ => Application.withConf_flags
  | startSession => exact h.update_flags _ fun _ => Application.withConf_flags
  | setRunning | setStartingUp | setExited | clearStartingUp => exact ⟨h.reason, h.sent⟩
  | ret successful => exact h.goto _

theorem stepRun (h : t.Spoken) (outcome : StartOutcome) (pc : RunPc) :
    (t.stepRun outcome pc).Spoken := by
  cases pc with
  | setRunning => exact h.update_flags _ fun _ => Application.withConf_flags
  | createWorkers =>
    apply h.update
    intro app happ
    obtain ⟨size, -, rfl⟩ := Option.map_eq_some_iff.mp happ
    exact h.reason
  | startThreads =>
    unfold Thread.stepRun
    dsimp only
    split
    · apply h.update
      intro app happ
      obtain ⟨-, happ⟩ := Option.ite_none_right_eq_some.mp happ
      obtain rfl := Option.some.inj happ
      exact h.reason
    · exact ⟨h.reason, h.sent⟩
  | setCtrlHandler =>
    unfold Thread.stepRun
    dsimp only
    split
    · exact h.goto _
    · exact h.goto _
  | registerExit | clearStartingUp => exact ⟨h.reason, h.sent⟩
  | ret => exact h.goto _

theorem stepShutdown (h : t.Spoken) (caller : ShutdownCaller) (pc : TeardownPc) :
    (t.stepShutdown caller pc).Spoken := by
  cases pc with
  | test =>
    unfold Thread.stepShutdown
    dsimp only
    split
    · exact h.goto _
    · exact h.goto _
  | readStats => exact h.update_flags _ fun _ => Application.withConf_flags
  | setExited => exact ⟨h.reason, h.sent⟩
  | stopWorkers => exact h.update_flags _ fun _ => Application.stopWorkers_flags
  | clearWorkers => exact h.update_flags _ fun _ => Application.clearWorkers_flags
  | endSession => exact h.update_flags _ fun _ => Application.endSession_flags
  | clearConf => exact h.update_flags _ fun _ => Application.clearConf_flags
  | ret => exact h.goto _

/-- **Every step of a handler.** -/
theorem step (h : t.Spoken) {outcome : StartOutcome} (hstep : t.step outcome = some t') :
    t'.Spoken := by
  obtain ⟨app, pc, sent, alive⟩ := t
  cases pc with
  | receive | closed => cases hstep
  | initRun outcome pc =>
    cases hstep
    exact h.stepInitRun outcome pc
  | run outcome pc =>
    cases hstep
    exact h.stepRun outcome pc
  | shutdown caller pc =>
    cases hstep
    exact h.stepShutdown caller pc
  | runTestStartingUp | runTestRunning | stopTestStartingUp =>
    cases hstep
    dsimp only
    split
    · exact (h.send (response_mem (by decide))).goto _
    · exact h.goto _
  | stopTestRunning =>
    cases hstep
    dsimp only
    split
    · exact (h.send (response_mem (by decide))).goto _
    · exact (h.send (response_mem (by decide))).goto _
  | stopTestAgain =>
    cases hstep
    dsimp only
    split
    · exact (h.send (response_mem (by decide))).goto _
    · exact (h.send (response_mem (by decide))).goto _
  | callInitRun =>
    cases hstep
    exact (h.send startup_mem).goto _
  | callRun outcome =>
    cases hstep
    exact h.goto _
  | sendRunning =>
    cases hstep
    exact (h.send (response_mem (by decide))).goto _
  | sendCrashed =>
    cases hstep
    exact (h.send (crashed_mem h.reason)).goto _
  | killTestStartingUp =>
    cases hstep
    dsimp only
    split
    · exact (h.send (update_mem (by decide))).goto _
    · exact h.goto _
  | killTestRunning =>
    cases hstep
    dsimp only
    split
    · exact (h.send (update_mem (by decide))).goto _
    · exact h.goto _
  | killTestStopped =>
    cases hstep
    dsimp only
    split
    · exact h.goto _
    · exact (h.send (update_mem (by decide))).goto _
  | killRespond =>
    cases hstep
    exact (h.send (response_mem (by decide))).goto _
  | exit called =>
    cases hstep
    dsimp only
    split
    · exact h.goto _
    · exact ⟨h.reason, h.sent⟩

theorem receive (h : t.Spoken) (r : Request) : (t.receive r).Spoken := by
  cases r with
  | close => exact (h.send closed_mem).goto _
  | run | stop | kill => exact h.goto _

end Spoken

end Thread

namespace Wire

variable {k : Nat} {w : Wire k} {d : Daemon k} {a : DaemonLabel k}

/-- A step of the daemon sends lines of the protocol. -/
theorem spoken_next (hreason : w.app.crashReason ∈ crashReasons)
    (h : w.daemon.next a = some d) :
    d.app.crashReason ∈ crashReasons ∧ ∀ i, ∀ line ∈ d.toClient i, line ∈ answerLines := by
  have hquiet (i : Fin k) : (w.daemon.thread i).Spoken :=
    ⟨hreason, fun _ hl => absurd hl List.not_mem_nil⟩
  have hput {i : Fin k} {t : Thread} (ht : t.Spoken) : (w.daemon.put i t).app.crashReason ∈
      crashReasons ∧ ∀ j, ∀ line ∈ (w.daemon.put i t).toClient j, line ∈ answerLines := by
    refine ⟨ht.reason, fun j line hl => ?_⟩
    by_cases hj : j = i
    · subst hj
      rw [Daemon.put_toClient_self] at hl
      exact ht.sent line hl
    · rw [Daemon.put_toClient_of_ne _ hj] at hl
      exact absurd hl List.not_mem_nil
  obtain ⟨-, ⟨i, r, -, -, rfl⟩ | ⟨i, outcome, t, -, ht, rfl⟩ | ⟨i, -, -, rfl⟩⟩ :=
    Daemon.next_cases h
  · exact hput ((hquiet i).receive r)
  · exact hput ((hquiet i).step ht)
  · exact hput ((hquiet i).goto _)

end Wire

end NetShare
