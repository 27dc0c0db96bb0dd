import NetShare.Connections

/-!
# The dialogues of the command line tool

`startDriver`, `stopDriver` and `killDeamon` each send one request, then read lines and ask to close
the connection after every Response.  The daemon may send several Responses to a request, and lines
are in flight in both directions.  A client and the thread of its connection never wait for each
other.
-/

namespace NetShare

open Reasoning ConfigurationWorker

/-! ## 1. The client -/

def isValidResponse (doc : Json) : Bool :=
  (doc.member? "type").any Json.isString && (doc.member? "data").any Json.isObject

def isConnectionCloseResponse (doc : Json) : Bool := doc.state? == some "closed"

/-- What the three programs differ in: what they print first, their request, and what they print
for the state in a line. -/
structure Command where
  announce : String
  request : Request
  report : String → Option String

def startDriver : Command where
  announce := "Starting VPN Worker ..."
  request := .run
  report
    | "startup" => some "VPN Worker is starting up..."
    | "crashed" =>
      some "VPN Worker crashed during startup. Please view the logs for more information!"
    | "running" => some "VPN Worker successfully started"
    | _ => none

def stopDriver : Command where
  announce := "Stopping VPN Worker ..."
  request := .stop
  report
    | "startup" =>
      some "VPN Worker is starting up! Please try again after the Worker has fully started"
    | "running" => some "VPN Worker currently running. Shutting down..."
    | "stopped" => some "VPN Worker is stopped"
    | _ => none

def killDeamon : Command where
  announce := "Killing VPN Worker Deamon ..."
  request := .kill
  report
    | "stopped" => some "VPN Worker Deamon has stopped"
    | "worker.startup" => some "VPN Worker ist starting up. Waiting for it to finish..."
    | "worker.running" => some "VPN Worker is currently running. Shutting it down..."
    | "worker.stopped" => some "VPN Worker is now not running. Killing deamon..."
    | _ => none

/-- Before a `SendLine`, in `ReceiveLine`, or after the loop; `left` keeps the line that ended it,
`none` for the empty line of a connection that has ended. -/
inductive ClientPc where
  | sendRequest
  | receive
  | sendClose
  | left (last : Option Json)

structure Client where
  pc : ClientPc := .sendRequest
  printed : List String := []

namespace Client

def print (c : Client) (text : String) : Client := { c with printed := c.printed ++ [text] }

def goto (c : Client) (pc : ClientPc) : Client := { c with pc }

/-- A round of the loop with the line that was received. -/
def receiveLine (command : Command) (c : Client) (line : Json) : Client :=
  if !isValidResponse line then
    (c.print "Worker returned an invalid Resposne").goto (.left (some line))
  else if isConnectionCloseResponse line then
    c.goto (.left (some line))
  else
    match line.state? with
    | none => (c.print "Worker returned invalid response object").goto (.left (some line))
    | some state =>
      ((command.report state).elim c c.print).goto
        (if line.isResponse then .sendClose else .receive)

@[simp] theorem goto_pc (c : Client) (pc : ClientPc) : (c.goto pc).pc = pc := rfl

/-- After a Response the client has something to send, or is done. -/
theorem receiveLine_response (command : Command) (c : Client) {line : Json}
    (h : line.isResponse = true) :
    (c.receiveLine command line).pc = .sendClose ∨
      (c.receiveLine command line).pc = .left (some line) := by
  unfold receiveLine
  split
  · exact .inr rfl
  · split
    · exact .inr rfl
    · split
      · exact .inr rfl
      · exact .inl rfl

end Client

/-! ## 2. What a thread sends -/

/-- A line of which a client makes something: the last one of its connection, or a state other than
"closed". -/
def Understood (line : Json) : Prop :=
  line = closedResponse ∨
    isValidResponse line = true ∧ ∃ state, line.state? = some state ∧ state ≠ "closed"

-- Every message of the daemon has this form; only its state matters to a client.
theorem understood_message {type state : String} {rest : List (String × Json)}
    (h : cString state ≠ "closed") :
    Understood (message type (("state", .string state) :: rest)) :=
  .inr ⟨rfl, cString state, rfl, h⟩

/-- A client leaves after no other line than the last one. -/
theorem Client.receiveLine_left {command : Command} {c : Client} {line : Json}
    (h : Understood line) {last : Option Json}
    (hleft : (c.receiveLine command line).pc = .left last) : last = some closedResponse := by
  rcases h with rfl | ⟨hvalid, state, hstate, hopen⟩
  · exact (ClientPc.left.inj hleft).symm
  · have hclose : isConnectionCloseResponse line = false := by
      simp only [isConnectionCloseResponse, hstate, Option.some_beq_some, beq_eq_false_iff_ne]
      exact hopen
    simp only [receiveLine, hvalid, hclose, hstate, Bool.not_true, Bool.false_eq_true, if_false,
      goto_pc] at hleft
    split at hleft <;> cases hleft

namespace Thread

/-- Between two lines that it receives, a thread sends only lines that are understood, and it comes
back for the next line by sending a Response. -/
structure Replies (t t' : Thread) : Prop where
  understood : ∀ line ∈ t'.sent, line ∈ t.sent ∨ Understood line
  response : t'.pc = .receive → ∃ line ∈ t'.sent, line.isResponse = true

variable {t t' : Thread} {pc : ConnectionPc}

-- The steps that send nothing stay inside the handler.
theorem replies_of_sent_eq (hsent : t'.sent = t.sent) (hpc : t'.pc ≠ .receive) : t.Replies t' where
  understood _ h := .inl (hsent ▸ h)
  response h := absurd h hpc

theorem replies_goto (hpc : pc ≠ .receive) : t.Replies (t.goto pc) := replies_of_sent_eq rfl hpc

-- A fault leaves the thread where it was, so it does not get back to `ReceiveLine` either.
theorem replies_update (app : Option Application) (ht : t.pc ≠ .receive) (hpc : pc ≠ .receive) :
    t.Replies (t.update app pc) := by
  cases app with
  | none => exact replies_of_sent_eq rfl ht
  | some app => exact replies_of_sent_eq rfl hpc

/-- A line is sent, and it is a Response if the handler is done. -/
theorem replies_send {line : Json} (h : Understood line)
    (hpc : pc = .receive → line.isResponse = true) : t.Replies ((t.send line).goto pc) where
  understood l hl := by
    rcases List.mem_append.mp hl with hl | hl
    · exact .inl hl
    · rw [List.mem_singleton.mp hl]
      exact .inr h
  response hgoto := ⟨line, List.mem_append_right _ List.mem_cons_self, hpc hgoto⟩

-- The functions of the application send nothing; only their callers do.
theorem stepInitRun_replies (outcome : StartOutcome) (pc : InitRunPc) (ht : t.pc ≠ .receive) :
    t.Replies (t.stepInitRun outcome pc) := by
  cases pc with
  | readConfig =>
    unfold stepInitRun
    dsimp only
    split
    · exact replies_of_sent_eq rfl (by rintro ⟨⟩)
    · exact replies_update _ ht (by rintro ⟨⟩)
  | checkAdapters =>
    unfold stepInitRun
    dsimp only
    split
    · exact replies_update _ ht (by rintro ⟨⟩)
    · exact replies_goto (by rintro ⟨⟩)
  | initializeWintun =>
    unfold stepInitRun
    dsimp only
    split <;> exact replies_goto (by rintro ⟨⟩)
  | ret successful => cases successful <;> exact replies_goto (by rintro ⟨⟩)
  | generateUDPConfigs | getAdapterHandle | startSession =>
    exact replies_update _ ht (by rintro ⟨⟩)
  | clearCrash | setRunning | setStartingUp | setExited | clearStartingUp =>
    exact replies_of_sent_eq rfl (by rintro ⟨⟩)

theorem stepRun_replies (outcome : StartOutcome) (pc : RunPc) (ht : t.pc ≠ .receive) :
    t.Replies (t.stepRun outcome pc) := by
  cases pc with
  | startThreads =>
    unfold stepRun
    dsimp only
    split
    · exact replies_update _ ht (by rintro ⟨⟩)
    · exact replies_update _ ht ht
  | setCtrlHandler =>
    unfold stepRun
    dsimp only
    split <;> exact replies_goto (by rintro ⟨⟩)
  | setRunning | createWorkers => exact replies_update _ ht (by rintro ⟨⟩)
  | registerExit | clearStartingUp | ret => exact replies_of_sent_eq rfl (by rintro ⟨⟩)

-- Every caller of `shutdown` has something to do after it.
theorem resume_ne_receive (caller : ShutdownCaller) : caller.resume ≠ .receive := by
  cases caller <;> rintro ⟨⟩

theorem stepShutdown_replies (caller : ShutdownCaller) (pc : TeardownPc) (ht : t.pc ≠ .receive) :
    t.Replies (t.stepShutdown caller pc) := by
  cases pc with
  | test =>
    unfold stepShutdown
    dsimp only
    split
    · exact replies_goto (resume_ne_receive caller)
    · exact replies_goto (by rintro ⟨⟩)
  | setExited => exact replies_of_sent_eq rfl (by rintro ⟨⟩)
  | ret => exact replies_goto (resume_ne_receive caller)
  | readStats | stopWorkers | clearWorkers | endSession | clearConf =>
    exact replies_update _ ht (by rintro ⟨⟩)

/-- **Every step of a handler.** -/
theorem step_replies {outcome : StartOutcome} (h : t.step outcome = some t') : t.Replies t' := by
  obtain ⟨app, pc, sent, alive⟩ := t
  cases pc with
  | receive | closed => cases h
  | initRun outcome pc =>
    cases h
    exact stepInitRun_replies outcome pc (by rintro ⟨⟩)
  | run outcome pc =>
    cases h
    exact stepRun_replies outcome pc (by rintro ⟨⟩)
  | shutdown caller pc =>
    cases h
    exact stepShutdown_replies caller pc (by rintro ⟨⟩)
  | runTestStartingUp | runTestRunning | stopTestStartingUp =>
    cases h
    dsimp only
    split
    · exact replies_send (understood_message (by decide)) fun _ => rfl
    · exact replies_goto (by rintro ⟨⟩)
  | stopTestRunning =>
    cases h
    dsimp only
    split
    · exact replies_send (understood_message (by decide)) nofun
    · exact replies_send (understood_message (by decide)) fun _ => rfl
  | stopTestAgain =>
    cases h
    dsimp only
    split <;> exact replies_send (understood_message (by decide)) fun _ => rfl
  | callInitRun | killRespond =>
    cases h
    exact replies_send (understood_message (by decide)) nofun
  | sendRunning | sendCrashed =>
    cases h
    exact replies_send (understood_message (by decide)) fun _ => rfl
  | callRun outcome =>
    cases h
    exact replies_goto (by rintro ⟨⟩)
  | killTestStartingUp | killTestRunning =>
    cases h
    dsimp only
    split
    · exact replies_send (understood_message (by decide)) nofun
    · exact replies_goto (by rintro ⟨⟩)
  | killTestStopped =>
    cases h
    dsimp only
    split
    · exact replies_goto (by rintro ⟨⟩)
    · exact replies_send (understood_message (by decide)) nofun
  | exit called =>
    cases h
    dsimp only
    split
    · exact replies_goto (by rintro ⟨⟩)
    · exact replies_of_sent_eq rfl (by rintro ⟨⟩)

/-- A thread in a handler is never blocked. -/
theorem step_isSome {outcome : StartOutcome} (hreceive : t.pc ≠ .receive)
    (hclosed : t.pc ≠ .closed) :
    (t.step outcome).isSome = true := by
  unfold step
  split
  next heq => exact absurd heq hreceive
  next heq => exact absurd heq hclosed
  all_goals rfl

-- Receiving a line starts its handler; a close request is answered at once.
theorem receive_replies (t : Thread) (r : Request) : t.Replies (t.receive r) := by
  cases r with
  | close => exact replies_send (.inl rfl) nofun
  | run | stop | kill => exact replies_goto (by rintro ⟨⟩)

end Thread

/-! ## 3. Both ends -/

/-- `toDaemon` are the requests sent on each connection and not received yet, each for its line. -/
structure Dialogue (k : Nat) where
  daemon : Daemon k := {}
  client : Fin k → Client := fun _ => {}
  toDaemon : Fin k → List Request := fun _ => []

inductive DialogueLabel (k : Nat) where
  | clientSend (i : Fin k)
  | clientReceive (i : Fin k)
  | clientEnd (i : Fin k)
  | daemonReceive (i : Fin k)
  | daemonEnd (i : Fin k)
  | daemonStep (i : Fin k) (outcome : StartOutcome)

/-- The connection at which the step is taken. -/
def DialogueLabel.connection {k : Nat} : DialogueLabel k → Fin k
  | .clientSend i | .clientReceive i | .clientEnd i | .daemonReceive i | .daemonEnd i
  | .daemonStep i _ => i

namespace Dialogue

variable {k : Nat}

def withClient (s : Dialogue k) (i : Fin k) (c : Client) : Dialogue k :=
  { s with client := Function.update s.client i c }

/-- The lines that are left for a client. -/
def withLines (s : Dialogue k) (i : Fin k) (lines : List Json) : Dialogue k :=
  { s with daemon.toClient := Function.update s.daemon.toClient i lines }

def sendRequest (s : Dialogue k) (i : Fin k) (r : Request) : Dialogue k :=
  { s with toDaemon := Function.update s.toDaemon i (s.toDaemon i ++ [r]) }

/-- The daemon's end of the connection is closed, by its thread or with the process. -/
def Ended (s : Dialogue k) (i : Fin k) : Prop :=
  s.daemon.alive = false ∨ s.daemon.pc i = .closed

instance (s : Dialogue k) (i : Fin k) : Decidable (s.Ended i) :=
  decidable_of_iff (s.daemon.alive = false ∨ (s.daemon.pc i matches .closed) = true) <| by
    unfold Ended
    cases s.daemon.pc i <;> simp

/-- A step of a client, or of the daemon, which sees the end of a connection that the client has
left.  Lines in flight may be lost when a connection ends. -/
def next (command : Fin k → Command) (s : Dialogue k) : DialogueLabel k → Option (Dialogue k)
  | .clientSend i =>
    match (s.client i).pc with
    | .sendRequest =>
      some ((s.sendRequest i (command i).request).withClient i
        (((s.client i).print (command i).announce).goto .receive))
    | .sendClose => some ((s.sendRequest i .close).withClient i ((s.client i).goto .receive))
    | _ => none
  | .clientReceive i =>
    match (s.client i).pc, s.daemon.toClient i with
    | .receive, line :: lines =>
      some ((s.withLines i lines).withClient i ((s.client i).receiveLine (command i) line))
    | _, _ => none
  | .clientEnd i =>
    match (s.client i).pc with
    | .receive =>
      if s.Ended i then some (s.withClient i ((s.client i).goto (.left none))) else none
    | _ => none
  | .daemonReceive i =>
    match s.toDaemon i with
    | [] => none
    | r :: requests =>
      (s.daemon.next (.request i r)).map fun daemon =>
        { s with daemon, toDaemon := Function.update s.toDaemon i requests }
  | .daemonEnd i =>
    match (s.client i).pc with
    | .left _ => (s.daemon.next (.disconnect i)).map fun daemon => { s with daemon }
    | _ => none
  | .daemonStep i outcome =>
    (s.daemon.next (.step i outcome)).map fun daemon => { s with daemon }

end Dialogue

/-- `k` clients and the daemon, whose application may be in any state when they connect. -/
def dialogueMachine {k : Nat} (command : Fin k → Command) :
    Machine (Dialogue k) (DialogueLabel k) where
  init s := ∃ app, s = { daemon := { app } }
  next := Dialogue.next command

/-! ## 4. The invariant -/

namespace Dialogue

variable {k : Nat} {command : Fin k → Command} {s s' : Dialogue k}

/-- What a client has left for: the answer to its close request, or the end of the connection. -/
def Reason (s : Dialogue k) (i : Fin k) : Option Json → Prop
  | some line => line = closedResponse
  | none => s.Ended i

/-- At each connection: the lines in flight are understood; a thread that waits has a request to
come, or its client has something to send or a Response to come; a client has left for a reason. -/
structure Ordered (s : Dialogue k) : Prop where
  understood : ∀ i, ∀ line ∈ s.daemon.toClient i, Understood line
  served : ∀ i, s.daemon.pc i = .receive → (s.client i).pc = .receive →
    s.toDaemon i ≠ [] ∨ ∃ line ∈ s.daemon.toClient i, line.isResponse = true
  left : ∀ i last, (s.client i).pc = .left last → s.Reason i last

/-- A thread moves: it is not waiting, or it comes back with a Response. -/
theorem Ordered.put (h : s.Ordered) {i : Fin k} {t : Thread} {toDaemon : Fin k → List Request}
    (halive : s.daemon.alive = true) (hopen : s.daemon.pc i ≠ .closed)
    (hrequests : ∀ j, j ≠ i → toDaemon j = s.toDaemon j)
    (ht : (s.daemon.thread i).Replies t) :
    Ordered { s with daemon := s.daemon.put i t, toDaemon } := by
  refine ⟨fun j line hl => ?_, fun j hpc hclient => ?_, fun j last hlast => ?_⟩
  · by_cases hj : j = i
    · subst hj
      rw [Daemon.put_toClient_self, List.mem_append] at hl
      rcases hl with hl | hl
      · exact h.understood j line hl
      · exact (ht.understood line hl).resolve_left List.not_mem_nil
    · rw [Daemon.put_toClient_of_ne _ hj] at hl
      exact h.understood j line hl
  · by_cases hj : j = i
    · subst hj
      rw [Daemon.put_pc_self] at hpc
      obtain ⟨line, hl, hresponse⟩ := ht.response hpc
      refine .inr ⟨line, ?_, hresponse⟩
      rw [Daemon.put_toClient_self]
      exact List.mem_append_right _ hl
    · rw [Daemon.put_pc_of_ne _ hj] at hpc
      have hserved := h.served j hpc hclient
      rw [← hrequests j hj, ← Daemon.put_toClient_of_ne s.daemon hj t] at hserved
      exact hserved
  · have hreason := h.left j last hlast
    cases last with
    | some line => exact hreason
    | none =>
      rcases hreason with hdead | hclosed
      · exact absurd halive (by rw [hdead]; decide)
      · have hj : j ≠ i := fun hj => hopen (hj ▸ hclosed)
        exact .inr ((Daemon.put_pc_of_ne _ hj t).trans hclosed)

/-- A client moves. -/
theorem Ordered.withClient (h : s.Ordered) (i : Fin k) {c : Client}
    (hserved : s.daemon.pc i = .receive → c.pc = .receive →
      s.toDaemon i ≠ [] ∨ ∃ line ∈ s.daemon.toClient i, line.isResponse = true)
    (hleft : ∀ last, c.pc = .left last → s.Reason i last) :
    (s.withClient i c).Ordered := by
  have hself : (s.withClient i c).client i = c := Function.update_self ..
  have hother : ∀ j, j ≠ i → (s.withClient i c).client j = s.client j :=
    fun j hj => Function.update_of_ne hj ..
  refine ⟨h.understood, fun j hpc hclient => ?_, fun j last hlast => ?_⟩
  · by_cases hj : j = i
    · subst hj
      exact hserved hpc (hself ▸ hclient)
    · exact h.served j hpc (hother j hj ▸ hclient)
  · by_cases hj : j = i
    · subst hj
      exact hleft last (hself ▸ hlast)
    · exact h.left j last (hother j hj ▸ hlast)

/-- A line is taken out by a client that does not wait on after a Response. -/
theorem Ordered.receive (h : s.Ordered) {i : Fin k} {line : Json} {lines : List Json}
    (hlines : s.daemon.toClient i = line :: lines)
    (hresponse : (s.client i).pc = .receive → line.isResponse = false) :
    (s.withLines i lines).Ordered := by
  have hself : (s.withLines i lines).daemon.toClient i = lines := Function.update_self ..
  have hother : ∀ j, j ≠ i → (s.withLines i lines).daemon.toClient j = s.daemon.toClient j :=
    fun j hj => Function.update_of_ne hj ..
  refine ⟨fun j l hl => ?_, fun j hpc hclient => ?_, h.left⟩
  · by_cases hj : j = i
    · subst hj
      exact h.understood j l (hlines ▸ List.mem_cons_of_mem line (hself ▸ hl))
    · exact h.understood j l (hother j hj ▸ hl)
  · refine (h.served j hpc hclient).imp_right fun ⟨l, hl, hlr⟩ => ⟨l, ?_, hlr⟩
    by_cases hj : j = i
    · subst hj
      rw [hlines, List.mem_cons] at hl
      rw [hself]
      apply hl.resolve_left
      intro heq
      rw [heq, hresponse hclient] at hlr
      cases hlr
    · rwa [hother j hj]

-- One case for each label: the clients move in the first three, the daemon in the others.
theorem Ordered.next (h : s.Ordered) {a : DialogueLabel k} (hn : s.next command a = some s') :
    s'.Ordered := by
  cases a with
  | clientSend i =>
    have hrequest : ∀ r, (s.sendRequest i r).toDaemon i ≠ [] := by
      intro r
      simp only [sendRequest, Function.update_self]
      exact List.append_ne_nil_of_right_ne_nil _ (List.cons_ne_nil r [])
    have hsent : ∀ r, (s.sendRequest i r).Ordered := by
      intro r
      refine ⟨h.understood, fun j hpc hclient => ?_, h.left⟩
      by_cases hj : j = i
      · subst hj
        exact .inl (hrequest r)
      · have htoDaemon : (s.sendRequest i r).toDaemon j = s.toDaemon j :=
          Function.update_of_ne hj ..
        rw [htoDaemon]
        exact h.served j hpc hclient
    unfold Dialogue.next at hn
    dsimp only at hn
    split at hn
    · cases hn
      exact (hsent _).withClient i (fun _ _ => .inl (hrequest _)) nofun
    · cases hn
      exact (hsent _).withClient i (fun _ _ => .inl (hrequest _)) nofun
    · cases hn
  | clientReceive i =>
    unfold Dialogue.next at hn
    dsimp only at hn
    split at hn
    next line lines hpc hlines =>
      cases hn
      have hclient : (s.withClient i ((s.client i).receiveLine (command i) line)).Ordered := by
        apply h.withClient i (fun hd _ => h.served i hd hpc)
        intro last hlast
        have hline := h.understood i line (hlines ▸ List.mem_cons_self)
        rw [Client.receiveLine_left hline hlast]
        exact rfl
      apply hclient.receive hlines
      intro hreceive
      have hi : (s.withClient i ((s.client i).receiveLine (command i) line)).client i =
          (s.client i).receiveLine (command i) line := Function.update_self ..
      rw [hi] at hreceive
      by_contra hresponse
      rw [Bool.not_eq_false] at hresponse
      rcases Client.receiveLine_response (command i) (s.client i) hresponse with hc | hc <;>
        rw [hc] at hreceive <;> cases hreceive
    next => cases hn
  | clientEnd i =>
    unfold Dialogue.next at hn
    dsimp only at hn
    split at hn
    · split at hn
      next hended =>
        cases hn
        refine h.withClient i nofun fun last hlast => ?_
        cases hlast
        exact hended
      next => cases hn
    · cases hn
  | daemonReceive i =>
    unfold Dialogue.next at hn
    dsimp only at hn
    split at hn
    next => cases hn
    next r requests hrequests =>
      obtain ⟨d, hd, rfl⟩ := Option.map_eq_some_iff.mp hn
      obtain ⟨halive, ⟨_, _, ⟨⟩, hpc, rfl⟩ | ⟨_, _, _, ⟨⟩, -, -⟩ | ⟨_, ⟨⟩, -, -⟩⟩ :=
        Daemon.next_cases hd
      exact h.put halive (by rw [hpc]; rintro ⟨⟩) (fun j hj => Function.update_of_ne hj ..)
        (Thread.receive_replies _ r)
  | daemonEnd i =>
    unfold Dialogue.next at hn
    dsimp only at hn
    split at hn
    · obtain ⟨d, hd, rfl⟩ := Option.map_eq_some_iff.mp hn
      obtain ⟨halive, ⟨_, _, ⟨⟩, -, -⟩ | ⟨_, _, _, ⟨⟩, -, -⟩ | ⟨_, ⟨⟩, hpc, rfl⟩⟩ :=
        Daemon.next_cases hd
      exact h.put halive (by rw [hpc]; rintro ⟨⟩) (fun j _ => rfl)
        (Thread.replies_goto (by rintro ⟨⟩))
    · cases hn
  | daemonStep i outcome =>
    obtain ⟨d, hd, rfl⟩ := Option.map_eq_some_iff.mp hn
    obtain ⟨halive, ⟨_, _, ⟨⟩, -, -⟩ | ⟨_, _, t, ⟨⟩, ht, rfl⟩ | ⟨_, ⟨⟩, -, -⟩⟩ :=
      Daemon.next_cases hd
    refine h.put halive (fun hpc => ?_) (fun j _ => rfl) (Thread.step_replies ht)
    rw [Thread.step, show (s.daemon.thread i).pc = .closed from hpc] at ht
    cases ht

-- At first every client still has its request to send.
theorem ordered_of_reach (h : (dialogueMachine command).Reach s) : s.Ordered := by
  refine h.invariant ?_ fun s a s' hs hn => hs.next hn
  rintro _ ⟨app, rfl⟩
  refine ⟨fun i line hl => absurd hl List.not_mem_nil, fun i _ hclient => ?_,
    fun i last hlast => ?_⟩
  · cases hclient
  · cases hlast

/-! ## 5. No deadlock -/

/-- Client and thread both wait for a line of an open connection, and none is in flight. -/
def Deadlocked (s : Dialogue k) (i : Fin k) : Prop :=
  s.daemon.alive = true ∧
    (s.client i).pc = .receive ∧ s.daemon.toClient i = [] ∧
    s.daemon.pc i = .receive ∧ s.toDaemon i = []

-- A client that waits is owed an answer or has a request on the way.
theorem Ordered.not_deadlocked (h : s.Ordered) (i : Fin k) : ¬ s.Deadlocked i := by
  rintro ⟨-, hclient, hlines, hpc, hrequests⟩
  rcases h.served i hpc hclient with hne | ⟨line, hl, -⟩
  · exact hne hrequests
  · rw [hlines] at hl
    exact absurd hl List.not_mem_nil

end Dialogue

/-- **A client and its thread never wait for each other, and a client leaves only after the answer
to its close request or the end of the connection.**  Error Responses do not occur in these
dialogues. -/
theorem dialogue_no_deadlock {k : Nat} (command : Fin k → Command) {s : Dialogue k}
    (h : (dialogueMachine command).Reach s) (i : Fin k) :
    ¬ s.Deadlocked i ∧ ∀ last, (s.client i).pc = .left last → s.Reason i last := by
  have hordered := Dialogue.ordered_of_reach h
  exact ⟨hordered.not_deadlocked i, hordered.left i⟩

/-- A start, and then a stop, which is answered by two Responses and asks twice to close. -/
def answeredTwice {k : Nat} (i j : Fin k) : List (DialogueLabel k) :=
  [DialogueLabel.clientSend i, .daemonReceive i] ++
    List.replicate 22 (DialogueLabel.daemonStep i goodStart) ++
    [DialogueLabel.clientReceive i, .clientReceive i, .clientSend j, .daemonReceive j] ++
    List.replicate 2 (DialogueLabel.daemonStep j goodStart) ++
    [DialogueLabel.clientReceive j, .clientSend j] ++
    List.replicate 9 (DialogueLabel.daemonStep j goodStart) ++ [DialogueLabel.clientReceive j]

theorem dialogue_no_deadlock_answeredTwice :
    let s := ((dialogueMachine fun i : Fin 2 => if i = 0 then startDriver else stopDriver).run {}
      (answeredTwice 0 1)).get (by decide)
    ¬ s.Deadlocked 1 ∧ ∀ last, (s.client 1).pc = .left last → s.Reason 1 last :=
  dialogue_no_deadlock _ (Machine.reach_of_run ⟨{}, rfl⟩ (Option.some_get _).symm) 1

/-- **As long as a client has not left, it can take a step or its thread can.** -/
theorem dialogue_progress {k : Nat} (command : Fin k → Command) {s : Dialogue k}
    (h : (dialogueMachine command).Reach s) (i : Fin k)
    (hclient : ∀ last, (s.client i).pc ≠ .left last) :
    ∃ a, a.connection = i ∧ (s.next command a).isSome = true := by
  cases hpc : (s.client i).pc with
  | sendRequest => exact ⟨.clientSend i, rfl, by simp only [Dialogue.next, hpc, Option.isSome_some]⟩
  | sendClose => exact ⟨.clientSend i, rfl, by simp only [Dialogue.next, hpc, Option.isSome_some]⟩
  | left last => exact absurd hpc (hclient last)
  | receive =>
    by_cases hended : s.Ended i
    · refine ⟨.clientEnd i, rfl, ?_⟩
      simp only [Dialogue.next, hpc, if_pos hended, Option.isSome_some]
    · obtain ⟨halive, hopen⟩ := not_or.mp hended
      rw [Bool.not_eq_false] at halive
      cases hlines : s.daemon.toClient i with
      | cons line lines =>
        exact ⟨.clientReceive i, rfl, by simp only [Dialogue.next, hpc, hlines, Option.isSome_some]⟩
      | nil =>
        by_cases hwait : s.daemon.pc i = .receive
        · -- the thread waits, so the request it waits for is in flight
          obtain ⟨r, requests, hrequests⟩ : ∃ r requests, s.toDaemon i = r :: requests := by
            apply List.exists_cons_of_ne_nil
            intro hnil
            exact (Dialogue.ordered_of_reach h).not_deadlocked i
              ⟨halive, hpc, hlines, hwait, hnil⟩
          refine ⟨.daemonReceive i, rfl, ?_⟩
          simp only [Dialogue.next, hrequests, Daemon.next, halive, if_true, hwait,
            Option.map_some, Option.isSome_some]
        · refine ⟨.daemonStep i goodStart, rfl, ?_⟩
          simp only [Dialogue.next, Daemon.next, halive, if_true, Option.isSome_map]
          exact Thread.step_isSome hwait hopen

end NetShare
