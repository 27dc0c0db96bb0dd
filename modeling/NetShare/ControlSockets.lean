import NetShare.DriverSockets
import NetShare.Reasoning.Machine

/-!
# The daemon's own sockets

`Socket` and `SocketServer` from `Socket.h` and `Socket.cpp` as `runConfigurationWorker` and
`Answer` use them: one server, and an object for each connection that is deleted at its end.  The
class starts Winsock up once; the driver starts it up for each socket and cleans it up once a
`shutdown`.  The two share one count.
-/

namespace NetShare

open Reasoning NetworkAdapterList

/-! ## 1. The class -/

namespace Winsock

def openHandles (w : Winsock) : List Nat := w.sockets.map OpenSocket.handle

/-- A handle that `accept` may return: that of a new socket or one that has been closed. -/
def Available (w : Winsock) (handle : Nat) : Prop :=
  handle ≠ 0 ∧ handle ≠ INVALID_SOCKET ∧ handle ≤ w.nextHandle ∧ handle ∉ w.openHandles

instance (w : Winsock) (handle : Nat) : Decidable (w.Available handle) :=
  inferInstanceAs (Decidable (_ ∧ _ ∧ _ ∧ _))

/-- An `accept` that returns this handle. -/
def accept (w : Winsock) (handle : Nat) : Winsock :=
  { w with
    nextHandle := max w.nextHandle (handle + 1)
    sockets := w.sockets ++ [{ handle }]
    handle_lt := by
      intro s hs
      obtain hs | hs := List.mem_append.mp hs
      · exact Nat.lt_of_lt_of_le (w.handle_lt s hs) (Nat.le_max_left _ _)
      · rw [List.mem_singleton.mp hs]
        exact Nat.lt_of_lt_of_le (Nat.lt_succ_self _) (Nat.le_max_right _ _) }

end Winsock

/-- `nofSockets_` and what the class uses of Winsock. -/
structure SocketClass where
  nofSockets : Nat
  winsock : Winsock

namespace SocketClass

/-- `Start`, where a `WSAStartup` succeeds. -/
def Start (c : SocketClass) : SocketClass where
  nofSockets := c.nofSockets + 1
  winsock := if c.nofSockets = 0 then c.winsock.WSAStartup else c.winsock

/-- The destructor of an object that was never copied. -/
def delete (c : SocketClass) (s : Nat) : SocketClass where
  nofSockets := c.nofSockets - 1
  winsock :=
    if c.nofSockets - 1 = 0 then (c.winsock.closesocket s).WSACleanup else c.winsock.closesocket s

/-- The constructor of `SocketServer` where everything succeeds.  The socket of its base is
overwritten by the one that it binds. -/
def SocketServer (port : UInt16) (c : SocketClass) : Nat × SocketClass :=
  let c := c.Start
  let (_, w) := c.winsock.socket
  let (s, w) := w.socket
  (s, { c with winsock := w.bind s ⟨⟨0, 0, 0, 0⟩, port⟩ })

end SocketClass

/-! ## 2. The daemon -/

/-- `connections` are the sockets of the objects in use.  The last four fields only record: how many
sockets the starts have left to the driver, how many times it was shut down, whether a `shutdown`
came when it had been shut down at least as many times as sockets were opened, and whether one
closed a handle that is in use by a connection. -/
structure ControlSockets where
  driver : Driver
  nofSockets : Nat
  connections : List Nat := []
  terminated : Bool := false
  opened : Nat := 0
  shutdowns : Nat := 0
  overdrawn : Bool := false
  hit : Bool := false

/-- `accept` has what the system call returns, `none` for `INVALID_SOCKET`. -/
inductive ControlLabel where
  | accept (handle : Option Nat)
  | delete (handle : Nat)
  | initRun (start : Start)
  | run (start : Start)
  | shutdown

theorem noSockets_lt : ∀ s ∈ ([] : List OpenSocket), s.handle < 1 :=
  fun _ hs => absurd hs List.not_mem_nil

/-- A process that has not used Winsock yet; no socket is given the handle 0. -/
def freshWinsock : Winsock := ⟨0, 0, 0, 1, [], noSockets_lt⟩

namespace ControlSockets

/-- The socket that `runConfigurationWorker` listens on. -/
def listening : Nat := (SocketClass.SocketServer 5260 ⟨0, freshWinsock⟩).1

/-- After the constructor of the server. -/
def start : ControlSockets :=
  let c := (SocketClass.SocketServer 5260 ⟨0, freshWinsock⟩).2
  { driver := { app := {}, adapterList := [], udpconfigs := [], winsock := c.winsock }
    nofSockets := c.nofSockets }

def winsock (s : ControlSockets) : Winsock := s.driver.winsock

def withClass (s : ControlSockets) (c : SocketClass) : ControlSockets :=
  { s with nofSockets := c.nofSockets, driver := { s.driver with winsock := c.winsock } }

/-- The driver was shut down; `s` is the state before. -/
def recordShutdown (s : ControlSockets) (driver : Driver) : ControlSockets :=
  { s with
    driver
    shutdowns := s.shutdowns + 1
    overdrawn := s.overdrawn || decide (s.opened ≤ s.shutdowns)
    hit := s.hit || s.driver.udpconfigs.any fun conf => s.connections.contains conf.socket }

def next (s : ControlSockets) (a : ControlLabel) : Option ControlSockets :=
  if s.terminated then none
  else
    match a with
    -- what is thrown leaves the thread
    | .accept none => some { s with terminated := true }
    | .accept (some handle) =>
      if listening ∈ s.winsock.openHandles ∧ s.winsock.Available handle then
        let c := SocketClass.Start ⟨s.nofSockets, s.winsock.accept handle⟩
        some { s.withClass c with connections := s.connections ++ [handle] }
      else none
    | .delete handle =>
      if handle ∈ s.connections then
        let c := SocketClass.delete ⟨s.nofSockets, s.winsock⟩ handle
        some { s.withClass c with connections := s.connections.erase handle }
      else none
    | .initRun start =>
      some { s with
        driver := (s.driver.initRun start).2
        opened := s.opened + start.openedSockets }
    | .run start =>
      (s.driver.run start).map fun driver =>
        if !start.setConsoleCtrlHandler && !s.driver.app.exited then s.recordShutdown driver
        else { s with driver }
    | .shutdown =>
      s.driver.shutdown.map fun driver =>
        if s.driver.app.exited then { s with driver } else s.recordShutdown driver

end ControlSockets

/-- The calls of the daemon on its sockets and on the driver, in any order. -/
def controlMachine : Machine ControlSockets ControlLabel where
  init s := s = .start
  next := ControlSockets.next

/-! ## 3. Handles -/

namespace Winsock

theorem mem_closesocket {w : Winsock} {handle x : Nat} :
    x ∈ (w.closesocket handle).openHandles ↔ x ∈ w.openHandles ∧ x ≠ handle := by
  simp only [openHandles, closesocket, List.mem_map, List.mem_filter, decide_eq_true_eq]
  constructor
  · rintro ⟨s, ⟨hs, hne⟩, rfl⟩
    exact ⟨⟨s, hs, rfl⟩, hne⟩
  · rintro ⟨⟨s, hs, rfl⟩, hne⟩
    exact ⟨s, ⟨hs, hne⟩, rfl⟩

theorem mem_closeSockets {configs : List UDPWorkerConfig} {w : Winsock} {x : Nat} :
    x ∈ (closeSockets configs w).openHandles ↔
      x ∈ w.openHandles ∧ ∀ conf ∈ configs, conf.socket ≠ x := by
  induction configs generalizing w with
  | nil => exact ⟨fun h => ⟨h, fun _ hc => absurd hc List.not_mem_nil⟩, fun h => h.1⟩
  | cons conf configs ih =>
    have hrest := ih (w := w.closesocket conf.socket)
    rw [mem_closesocket] at hrest
    rw [List.forall_mem_cons, and_left_comm, ← and_assoc, ne_comm, and_comm (a := _ ≠ _)]
    exact hrest

theorem mem_accept {w : Winsock} {handle x : Nat} :
    x ∈ (w.accept handle).openHandles ↔ x ∈ w.openHandles ∨ x = handle := by
  simp only [openHandles, accept, List.map_append, List.map_cons, List.map_nil, List.mem_append,
    List.mem_singleton]

end Winsock

/-! ## 4. What the driver does to the other sockets -/

/-- From `w` to `w'` no socket with an old handle has been opened. -/
structure OnlyNew (w w' : Winsock) : Prop where
  nextHandle_le : w.nextHandle ≤ w'.nextHandle
  new : ∀ x ∈ w'.openHandles, x ∈ w.openHandles ∨ w.nextHandle ≤ x

theorem OnlyNew.refl (w : Winsock) : OnlyNew w w := ⟨Nat.le_refl _, fun _ h => .inl h⟩

theorem OnlyNew.trans {w w' w'' : Winsock} (h : OnlyNew w w') (h' : OnlyNew w' w'') :
    OnlyNew w w'' := by
  refine ⟨Nat.le_trans h.nextHandle_le h'.nextHandle_le, fun x hx => ?_⟩
  rcases h'.new x hx with hold | hnew
  · exact h.new x hold
  · exact .inr (Nat.le_trans h.nextHandle_le hnew)

namespace Winsock

theorem mem_socket {w : Winsock} {x : Nat} :
    x ∈ w.socket.2.openHandles ↔ x ∈ w.openHandles ∨ x = w.nextHandle := by
  simp only [openHandles, socket, List.map_append, List.map_cons, List.map_nil, List.mem_append,
    List.mem_singleton]

@[simp] theorem bind_openHandles (w : Winsock) (handle : Nat) (address : SockAddr) :
    (w.bind handle address).openHandles = w.openHandles := by
  simp only [openHandles, bind, List.map_map]
  refine List.map_congr_left fun s _ => ?_
  show (if s.handle = handle then _ else s : OpenSocket).handle = s.handle
  split <;> rfl

theorem mem_of_WSACleanup {w : Winsock} {x : Nat} (h : x ∈ w.WSACleanup.openHandles) :
    x ∈ w.openHandles := by
  obtain ⟨s, hs, rfl⟩ := List.mem_map.mp h
  exact List.mem_map.mpr ⟨s, w.WSACleanup_sockets.1 s hs, rfl⟩

theorem WSACleanup_last {w : Winsock} (h : w.count = 1) : w.WSACleanup.openHandles = [] := by
  have hnone : w.WSACleanup.sockets = [] := if_pos h
  rw [openHandles, hnone, List.map_nil]

theorem WSACleanup_more {w : Winsock} (h : w.count ≠ 1) :
    w.WSACleanup.openHandles = w.openHandles := by
  rw [openHandles, w.WSACleanup_sockets.2 h, openHandles]

theorem closeSockets_nextHandle (configs : List UDPWorkerConfig) (w : Winsock) :
    (closeSockets configs w).nextHandle = w.nextHandle := by
  induction configs generalizing w with
  | nil => rfl
  | cons conf configs ih => exact ih (w.closesocket conf.socket)

theorem onlyNew_socket (w : Winsock) : OnlyNew w w.socket.2 := by
  refine ⟨Nat.le_succ _, fun x hx => ?_⟩
  rcases mem_socket.mp hx with hold | rfl
  · exact .inl hold
  · exact .inr (Nat.le_refl _)

end Winsock

/-- What the constructor of a configuration or an `initSocket` that gets no socket leaves in it, or
a handle from `bound` on. -/
def UDPWorkerConfig.NewFrom (bound : Nat) (conf : UDPWorkerConfig) : Prop :=
  conf.socket = 0 ∨ conf.socket = INVALID_SOCKET ∨ bound ≤ conf.socket

theorem UDPWorkerConfig.NewFrom.mono {bound bound' : Nat} {conf : UDPWorkerConfig}
    (h : conf.NewFrom bound') (hle : bound ≤ bound') : conf.NewFrom bound :=
  h.imp_right (Or.imp_right (Nat.le_trans hle))

theorem initSocket_new (outcome : InitSocketOutcome) {conf : UDPWorkerConfig}
    (hconf : conf.socket = 0) (w : Winsock) :
    (initSocket outcome conf w).1.NewFrom w.nextHandle ∧
      OnlyNew w (initSocket outcome conf w).2 := by
  have hsocket := w.WSAStartup.onlyNew_socket
  have hstart : OnlyNew w w.WSAStartup.socket.2 := ⟨hsocket.nextHandle_le, hsocket.new⟩
  cases outcome with
  | WSAStartupFails => exact ⟨.inl hconf, .refl w⟩
  | socketFails =>
    exact ⟨.inr (.inl rfl), Nat.le_refl _, fun x hx =>
      .inl (Winsock.mem_of_WSACleanup (w := w.WSAStartup) hx)⟩
  | bindFails =>
    refine ⟨.inr (.inr (Nat.le_refl _)), Nat.le_succ _, fun x hx => ?_⟩
    exact hstart.new x (Winsock.mem_closesocket.mp (Winsock.mem_of_WSACleanup hx)).1
  | ioctlsocketFails =>
    refine ⟨.inr (.inr (Nat.le_refl _)), Nat.le_succ _, fun x hx => ?_⟩
    have hbound := (Winsock.mem_closesocket.mp (Winsock.mem_of_WSACleanup hx)).1
    rw [Winsock.bind_openHandles] at hbound
    exact hstart.new x hbound
  | succeeds =>
    refine ⟨.inr (.inr (Nat.le_refl _)), Nat.le_succ _, fun x hx => ?_⟩
    have hbound : x ∈ (w.WSAStartup.socket.2.bind w.nextHandle
      ⟨conf.socketIpv4Adress, conf.socketPort⟩).openHandles := hx
    rw [Winsock.bind_openHandles] at hbound
    exact hstart.new x hbound

namespace NetworkAdapterList

theorem generateUDPConfigsFrom_new (port uid : Nat) (outcomes : Nat → InitSocketOutcome)
    (adapterList : NetworkAdapterList) (w : Winsock) :
    (∀ conf ∈ (generateUDPConfigsFrom port uid outcomes adapterList w).1,
        conf.NewFrom w.nextHandle) ∧
      OnlyNew w (generateUDPConfigsFrom port uid outcomes adapterList w).2 := by
  induction adapterList generalizing port uid outcomes w with
  | nil => exact ⟨fun _ h => absurd h List.not_mem_nil, .refl w⟩
  | cons entry rest ih =>
    obtain ⟨flag, adapter⟩ := entry
    rw [generateUDPConfigsFrom]
    cases flag with
    | false => exact ih port uid outcomes w
    | true =>
      have hsocket : ({
          reciever := false
          socketIpv4Adress := adapter.IpAdress
          socketPort := .ofNat port
          uid := .ofNat uid } : UDPWorkerConfig).socket = 0 := rfl
      obtain ⟨hfirst, hopened⟩ := initSocket_new (outcomes 0) hsocket w
      obtain ⟨hlater, hrest⟩ := ih (port + 1) (uid + 2) (fun k => outcomes (k + 1)) _
      refine ⟨?_, hopened.trans hrest⟩
      -- the receiver has the socket of its sender
      refine List.forall_mem_cons.mpr ⟨hfirst, List.forall_mem_cons.mpr ⟨hfirst, ?_⟩⟩
      exact fun conf hconf => (hlater conf hconf).mono hopened.nextHandle_le

end NetworkAdapterList

namespace Driver

/-- A start calls `generateUDPConfigs` once, or uses no sockets. -/
theorem initRun_sockets (start : Start) (d : Driver) :
    ((d.initRun start).2.udpconfigs = d.udpconfigs ∧ (d.initRun start).2.winsock = d.winsock) ∨
      ∃ adapterList, ((d.initRun start).2.udpconfigs, (d.initRun start).2.winsock) =
        generateUDPConfigs start.initSocket adapterList d.winsock := by
  unfold initRun
  cases start.configFile.internalConfig? with
  | none => exact .inl ⟨rfl, rfl⟩
  | some internalConfig =>
    dsimp only
    split
    · exact .inl ⟨rfl, rfl⟩
    · split
      · exact .inl ⟨rfl, rfl⟩
      · right
        refine ⟨start.adapterList internalConfig.names, ?_⟩
        (repeat' split) <;> rfl

theorem initRun_new (start : Start) (d : Driver) :
    (∀ conf ∈ (d.initRun start).2.udpconfigs,
        conf ∈ d.udpconfigs ∨ conf.NewFrom d.winsock.nextHandle) ∧
      OnlyNew d.winsock (d.initRun start).2.winsock := by
  rcases d.initRun_sockets start with ⟨hconfigs, hwinsock⟩ | ⟨adapterList, h⟩
  · rw [hconfigs, hwinsock]
    exact ⟨fun _ hconf => .inl hconf, .refl _⟩
  · obtain ⟨hconfigs, hwinsock⟩ := Prod.mk.inj h
    obtain ⟨hnew, hopened⟩ :=
      generateUDPConfigsFrom_new 65530 0 start.initSocket adapterList d.winsock
    rw [hconfigs, hwinsock]
    exact ⟨fun conf hconf => .inr (hnew conf hconf), hopened⟩

/-- What a `shutdown` with something to do makes of the sockets. -/
def ShutDown (d d' : Driver) : Prop :=
  d'.udpconfigs = d.udpconfigs ∧ d'.winsock = shutdownWSA (closeSockets d.udpconfigs d.winsock)

def SameSockets (d d' : Driver) : Prop := d'.udpconfigs = d.udpconfigs ∧ d'.winsock = d.winsock

namespace ShutDown

variable {d d' : Driver}

theorem count (h : d.ShutDown d') : d'.winsock.count = d.winsock.count - 1 := by
  rw [h.2]
  exact congrArg (· - 1) (closeSockets_calls d.udpconfigs d.winsock).1

theorem nextHandle (h : d.ShutDown d') : d'.winsock.nextHandle = d.winsock.nextHandle := by
  rw [h.2]
  exact Winsock.closeSockets_nextHandle d.udpconfigs d.winsock

theorem mem_of_mem (h : d.ShutDown d') {x : Nat} (hx : x ∈ d'.winsock.openHandles) :
    x ∈ d.winsock.openHandles := by
  rw [h.2] at hx
  exact (Winsock.mem_closeSockets.mp (Winsock.mem_of_WSACleanup hx)).1

-- The last start-up was not one for a socket of the driver.
theorem closesAll (h : d.ShutDown d') (hone : d.winsock.count = 1) :
    d'.winsock.openHandles = [] := by
  rw [h.2]
  exact Winsock.WSACleanup_last ((closeSockets_calls d.udpconfigs d.winsock).1.trans hone)

theorem keeps (h : d.ShutDown d') (hmore : d.winsock.count ≠ 1) {x : Nat}
    (hx : x ∈ d.winsock.openHandles) (hnot : ∀ conf ∈ d.udpconfigs, conf.socket ≠ x) :
    x ∈ d'.winsock.openHandles := by
  rw [h.2, shutdownWSA, Winsock.WSACleanup_more
    (by rw [(closeSockets_calls d.udpconfigs d.winsock).1]; exact hmore)]
  exact Winsock.mem_closeSockets.mpr ⟨hx, hnot⟩

end ShutDown

theorem shutdown_sockets {d d' : Driver} (h : d.shutdown = some d') :
    (d.app.exited = true → d.SameSockets d') ∧ (d.app.exited = false → d.ShutDown d') := by
  unfold shutdown at h
  split at h
  next hexited =>
    obtain rfl := Option.some.inj h
    exact ⟨fun _ => ⟨rfl, rfl⟩, fun hfalse => absurd (hfalse.symm.trans hexited) Bool.false_ne_true⟩
  next hexited =>
    obtain ⟨app, -, rfl⟩ := Option.map_eq_some_iff.mp h
    exact ⟨fun htrue => absurd htrue hexited, fun _ => ⟨rfl, rfl⟩⟩

theorem run_sockets {start : Start} {d d' : Driver} (h : d.run start = some d') :
    ((!start.setConsoleCtrlHandler && !d.app.exited) = false → d.SameSockets d') ∧
      ((!start.setConsoleCtrlHandler && !d.app.exited) = true → d.ShutDown d') := by
  unfold run at h
  split at h
  next conf size references _ _ _ =>
    split at h
    next =>
      obtain ⟨e, he, rfl⟩ := Option.map_eq_some_iff.mp h
      split at he
      next hctrl =>
        obtain rfl := Option.some.inj he
        rw [hctrl]
        exact ⟨fun _ => ⟨rfl, rfl⟩, fun hfalse => absurd hfalse Bool.false_ne_true⟩
      next hctrl =>
        obtain ⟨hsame, hshut⟩ := shutdown_sockets he
        rw [Bool.not_eq_true] at hctrl
        rw [hctrl, Bool.not_false, Bool.true_and, Bool.not_eq_false', Bool.not_eq_true']
        exact ⟨hsame, hshut⟩
    next => contradiction
  next => contradiction

end Driver

/-! ## 5. The invariant -/

namespace ControlSockets

/-- The driver's configurations do not have the listening socket, and until the count has been
overdrawn it stays open and every start-up is accounted for. -/
structure Sound (s : ControlSockets) : Prop where
  objects : s.nofSockets = s.connections.length + 1
  listening_lt : listening < s.winsock.nextHandle
  configs : ∀ conf ∈ s.driver.udpconfigs, conf.socket ≠ listening
  kept : s.overdrawn = false → listening ∈ s.winsock.openHandles ∧ s.shutdowns ≤ s.opened ∧
    s.winsock.count + s.shutdowns = 1 + s.opened
  closed : s.overdrawn = true → listening ∉ s.winsock.openHandles
  apart : listening ∉ s.connections
  served : s.overdrawn = false → s.hit = false →
    s.connections.Nodup ∧ ∀ handle ∈ s.connections, handle ∈ s.winsock.openHandles

variable {s : ControlSockets} {d' : Driver}

theorem sound_start : Sound .start where
  objects := rfl
  listening_lt := by decide
  configs _ h := absurd h List.not_mem_nil
  kept _ := ⟨by decide, Nat.le_refl _, rfl⟩
  closed h := absurd h Bool.false_ne_true
  apart := List.not_mem_nil
  served _ _ := ⟨List.nodup_nil, fun _ h => absurd h List.not_mem_nil⟩

/-- A step of the driver that keeps its sockets. -/
theorem Sound.same (h : s.Sound) (hsame : s.driver.SameSockets d') :
    Sound { s with driver := d' } := by
  obtain ⟨hconfigs, hwinsock⟩ := hsame
  have hwinsock' : d'.winsock = s.winsock := hwinsock
  refine ⟨h.objects, ?_, ?_, ?_, ?_, h.apart, ?_⟩
  · show listening < d'.winsock.nextHandle
    rw [hwinsock']
    exact h.listening_lt
  · show ∀ conf ∈ d'.udpconfigs, conf.socket ≠ listening
    rw [hconfigs]
    exact h.configs
  · show _ → listening ∈ d'.winsock.openHandles ∧ _ ∧ d'.winsock.count + _ = _
    rw [hwinsock']
    exact h.kept
  · show _ → listening ∉ d'.winsock.openHandles
    rw [hwinsock']
    exact h.closed
  · show _ → _ → _ ∧ ∀ handle ∈ s.connections, handle ∈ d'.winsock.openHandles
    rw [hwinsock']
    exact h.served

/-- Starting the driver adds sockets, each with its start-up. -/
theorem Sound.initRun (h : s.Sound) (start : Start) :
    Sound { s with
      driver := (s.driver.initRun start).2
      opened := s.opened + start.openedSockets } := by
  obtain ⟨hconfigs, honly⟩ := s.driver.initRun_new start
  have hopens := s.driver.initRun_opens start
  have hlt : listening < s.driver.winsock.nextHandle := h.listening_lt
  -- as long as the count is positive nothing is closed
  have hstays (hpos : 0 < s.driver.winsock.count) (x : Nat)
      (hx : x ∈ s.driver.winsock.openHandles) :
      x ∈ (s.driver.initRun start).2.winsock.openHandles := by
    obtain ⟨socket, hsocket, rfl⟩ := List.mem_map.mp hx
    exact List.mem_map.mpr ⟨socket, hopens.kept hpos socket hsocket, rfl⟩
  have hpos (hno : s.overdrawn = false) : 0 < s.driver.winsock.count := by
    obtain ⟨-, hle, hcount⟩ := h.kept hno
    have hcount' : s.driver.winsock.count + s.shutdowns = 1 + s.opened := hcount
    omega
  refine ⟨h.objects, Nat.lt_of_lt_of_le hlt honly.nextHandle_le, ?_, ?_, ?_, h.apart, ?_⟩
  · intro conf hconf
    rcases hconfigs conf hconf with hold | hzero | hinvalid | hnew
    · exact h.configs conf hold
    · rw [hzero]
      decide
    · rw [hinvalid]
      decide
    · omega
  · intro hno
    obtain ⟨hlisten, hle, hcount⟩ := h.kept hno
    have hcount' := hopens.count
    refine ⟨hstays (hpos hno) _ hlisten, Nat.le_add_right_of_le hle, ?_⟩
    show (s.driver.initRun start).2.winsock.count + s.shutdowns = 1 + (s.opened + _)
    have hcount'' : s.driver.winsock.count + s.shutdowns = 1 + s.opened := hcount
    omega
  · intro hover hlisten
    rcases honly.new _ hlisten with hold | hnew
    · exact h.closed hover hold
    · omega
  · intro hno hhit
    obtain ⟨hnodup, hopen⟩ := h.served hno hhit
    exact ⟨hnodup, fun x hx => hstays (hpos hno) x (hopen x hx)⟩

/-- Shutting the driver down closes its sockets, and with the last start-up all others. -/
theorem Sound.shutDown (h : s.Sound) (hshut : s.driver.ShutDown d') :
    Sound (s.recordShutdown d') := by
  have hcount := hshut.count
  have hbefore (hno : s.overdrawn = false) :
      s.shutdowns ≤ s.opened ∧ s.driver.winsock.count + s.shutdowns = 1 + s.opened :=
    (h.kept hno).2
  have hover : (s.recordShutdown d').overdrawn =
      (s.overdrawn || decide (s.opened ≤ s.shutdowns)) := rfl
  -- with fewer shutdowns than sockets this start-up is not the last
  have hstill (hno : (s.recordShutdown d').overdrawn = false) :
      s.overdrawn = false ∧ s.driver.winsock.count ≠ 1 ∧ s.shutdowns < s.opened := by
    rw [hover, Bool.or_eq_false_iff, decide_eq_false_iff_not] at hno
    obtain ⟨hno, hfew⟩ := hno
    have hsum := hbefore hno
    exact ⟨hno, by omega, by omega⟩
  refine ⟨h.objects, ?_, ?_, fun hno => ?_, fun hyes hlisten => ?_, h.apart, fun hno hhit => ?_⟩
  · show listening < d'.winsock.nextHandle
    rw [hshut.nextHandle]
    exact h.listening_lt
  · show ∀ conf ∈ d'.udpconfigs, conf.socket ≠ listening
    rw [hshut.1]
    exact h.configs
  · obtain ⟨hno, hmore, hlt⟩ := hstill hno
    obtain ⟨-, hsum⟩ := hbefore hno
    refine ⟨hshut.keeps hmore (h.kept hno).1 h.configs, hlt, ?_⟩
    show d'.winsock.count + (s.shutdowns + 1) = 1 + s.opened
    omega
  · rw [hover, Bool.or_eq_true, decide_eq_true_eq] at hyes
    cases hno : s.overdrawn with
    | true => exact h.closed hno (hshut.mem_of_mem hlisten)
    | false =>
      obtain ⟨hle, hsum⟩ := hbefore hno
      have hspent : s.opened ≤ s.shutdowns :=
        hyes.resolve_left (by rw [hno]; exact Bool.false_ne_true)
      have hempty : (s.recordShutdown d').winsock.openHandles = [] := hshut.closesAll (by omega)
      rw [hempty] at hlisten
      exact absurd hlisten List.not_mem_nil
  · obtain ⟨hno, hmore, -⟩ := hstill hno
    have hhit' : s.hit = false ∧ (s.driver.udpconfigs.any fun conf =>
        s.connections.contains conf.socket) = false := Bool.or_eq_false_iff.mp hhit
    obtain ⟨hnodup, hopen⟩ := h.served hno hhit'.1
    refine ⟨hnodup, fun x hx => hshut.keeps hmore (hopen x hx) fun conf hconf heq => ?_⟩
    have hused := List.any_eq_false.mp hhit'.2 conf hconf
    rw [heq] at hused
    exact hused (List.contains_iff_mem.mpr hx)

/-- A new connection; the server object keeps Winsock started up. -/
theorem Sound.accept (h : s.Sound) {handle : Nat} (hlisten : listening ∈ s.winsock.openHandles)
    (havailable : s.winsock.Available handle) :
    Sound { s.withClass (SocketClass.Start ⟨s.nofSockets, s.winsock.accept handle⟩) with
      connections := s.connections ++ [handle] } := by
  have hobjects := h.objects
  have hstarted : (SocketClass.Start ⟨s.nofSockets, s.winsock.accept handle⟩).winsock =
      s.winsock.accept handle := if_neg (show s.nofSockets ≠ 0 by omega)
  have hne : handle ≠ listening := by
    rintro rfl
    exact havailable.2.2.2 hlisten
  refine ⟨?_, ?_, h.configs, fun hno => ?_, fun hyes => ?_, ?_, fun hno hhit => ?_⟩
  · show s.nofSockets + 1 = (s.connections ++ [handle]).length + 1
    rw [List.length_append, hobjects]
    rfl
  · show listening < (SocketClass.Start _).winsock.nextHandle
    rw [hstarted]
    exact Nat.lt_of_lt_of_le h.listening_lt (Nat.le_max_left _ _)
  · show listening ∈ (SocketClass.Start _).winsock.openHandles ∧ _ ∧
      (SocketClass.Start _).winsock.count + _ = _
    rw [hstarted]
    exact ⟨Winsock.mem_accept.mpr (.inl hlisten), (h.kept hno).2⟩
  · exact absurd hlisten (h.closed hyes)
  · rw [List.mem_append, List.mem_singleton, not_or]
    exact ⟨h.apart, Ne.symm hne⟩
  · obtain ⟨hnodup, hopen⟩ := h.served hno hhit
    refine ⟨?_, fun x hx => ?_⟩
    · refine List.nodup_append.mpr ⟨hnodup, List.pairwise_singleton _ _, fun x hx y hy => ?_⟩
      rw [List.mem_singleton.mp hy]
      rintro rfl
      exact havailable.2.2.2 (hopen x hx)
    · show x ∈ (SocketClass.Start _).winsock.openHandles
      rw [hstarted, Winsock.mem_accept]
      exact (List.mem_append.mp hx).imp (hopen x) List.mem_singleton.mp

/-- The end of a connection.  The server object is left, so Winsock is not cleaned up. -/
theorem Sound.delete (h : s.Sound) {handle : Nat} (hhandle : handle ∈ s.connections) :
    Sound { s.withClass (SocketClass.delete ⟨s.nofSockets, s.winsock⟩ handle) with
      connections := s.connections.erase handle } := by
  have hobjects := h.objects
  have hlength := List.length_pos_of_mem hhandle
  have hdeleted : (SocketClass.delete ⟨s.nofSockets, s.winsock⟩ handle).winsock =
      s.winsock.closesocket handle := if_neg (show s.nofSockets - 1 ≠ 0 by omega)
  have hne : listening ≠ handle := by
    rintro rfl
    exact h.apart hhandle
  refine ⟨?_, ?_, h.configs, fun hno => ?_, fun hyes hlisten => ?_, ?_, fun hno hhit => ?_⟩
  · show s.nofSockets - 1 = (s.connections.erase handle).length + 1
    rw [List.length_erase_of_mem hhandle]
    omega
  · show listening < (SocketClass.delete _ _).winsock.nextHandle
    rw [hdeleted]
    exact h.listening_lt
  · obtain ⟨hlisten, hcount⟩ := h.kept hno
    show listening ∈ (SocketClass.delete _ _).winsock.openHandles ∧ _ ∧
      (SocketClass.delete _ _).winsock.count + _ = _
    rw [hdeleted]
    exact ⟨Winsock.mem_closesocket.mpr ⟨hlisten, hne⟩, hcount⟩
  · have hlisten' : listening ∈ (SocketClass.delete _ _).winsock.openHandles := hlisten
    rw [hdeleted] at hlisten'
    exact h.closed hyes (Winsock.mem_closesocket.mp hlisten').1
  · exact fun hmem => h.apart (List.mem_of_mem_erase hmem)
  · obtain ⟨hnodup, hopen⟩ := h.served hno hhit
    refine ⟨hnodup.erase handle, fun x hx => ?_⟩
    show x ∈ (SocketClass.delete _ _).winsock.openHandles
    obtain ⟨hxne, hx⟩ := hnodup.mem_erase_iff.mp hx
    rw [hdeleted]
    exact Winsock.mem_closesocket.mpr ⟨hopen x hx, hxne⟩

theorem Sound.step {s' : ControlSockets} {a : ControlLabel} (h : s.Sound)
    (hn : s.next a = some s') : s'.Sound := by
  unfold next at hn
  split at hn
  next => contradiction
  next =>
    cases a with
    | accept handle =>
      cases handle with
      | none =>
        obtain rfl := Option.some.inj hn
        exact ⟨h.objects, h.listening_lt, h.configs, h.kept, h.closed, h.apart, h.served⟩
      | some handle =>
        dsimp only at hn
        split at hn
        next hok =>
          obtain rfl := Option.some.inj hn
          exact h.accept hok.1 hok.2
        next => contradiction
    | delete handle =>
      dsimp only at hn
      split at hn
      next hhandle =>
        obtain rfl := Option.some.inj hn
        exact h.delete hhandle
      next => contradiction
    | initRun start =>
      obtain rfl := Option.some.inj hn
      exact h.initRun start
    | run start =>
      obtain ⟨d', hd', rfl⟩ := Option.map_eq_some_iff.mp hn
      obtain ⟨hsame, hshut⟩ := Driver.run_sockets hd'
      split
      next hctrl => exact h.shutDown (hshut hctrl)
      next hctrl => exact h.same (hsame (Bool.eq_false_iff.mpr hctrl))
    | shutdown =>
      obtain ⟨d', hd', rfl⟩ := Option.map_eq_some_iff.mp hn
      obtain ⟨hsame, hshut⟩ := Driver.shutdown_sockets hd'
      split
      next hexited => exact h.same (hsame hexited)
      next hexited => exact h.shutDown (hshut (Bool.eq_false_iff.mpr hexited))

theorem sound_of_reach (h : controlMachine.Reach s) : s.Sound :=
  h.invariant (fun _ hs => hs ▸ sound_start) fun _ _ _ hsound hn => hsound.step hn

end ControlSockets

/-- **The daemon's own sockets stay open exactly until the driver's clean-ups outnumber its
sockets.**  In every run the socket it listens on is open until a `shutdown` comes after at least as
many others as sockets were opened by the starts, and never again after it; so are the sockets of
the connections, unless a `shutdown` closes a handle that has been given to one of them.  Until then
every start-up that is not cleaned up is the one of the class or belongs to a socket of the driver;
the class itself never cleans up.  `++` and `--` of `nofSockets_`, which several threads execute,
are taken as atomic. -/
theorem control_sockets {s : ControlSockets} (h : controlMachine.Reach s) :
    (ControlSockets.listening ∈ s.winsock.openHandles ↔ s.overdrawn = false) ∧
      (s.overdrawn = false → s.winsock.count + s.shutdowns = 1 + s.opened) ∧
      (s.overdrawn = false → s.hit = false →
        ∀ handle ∈ s.connections, handle ∈ s.winsock.openHandles) ∧
      s.nofSockets = s.connections.length + 1 := by
  have hsound := ControlSockets.sound_of_reach h
  refine ⟨⟨fun hlisten => ?_, fun hno => (hsound.kept hno).1⟩, fun hno => (hsound.kept hno).2.2,
    fun hno hhit => (hsound.served hno hhit).2, hsound.objects⟩
  rw [← Bool.not_eq_true]
  exact fun hyes => hsound.closed hyes hlisten

/-- Both adapters have lost their addresses: no worker gets a socket.  Stopping this driver takes
the last start-up, which was that of the class. -/
def noSockets : List ControlLabel :=
  let start := { twoAdapters with initSocket := fun _ => .bindFails }
  [.accept (some 3), .initRun start, .run start, .shutdown]

def afterNoSockets : ControlSockets := (controlMachine.run .start noSockets).get (by decide)

theorem control_sockets_noSockets :
    afterNoSockets.overdrawn = true ∧ afterNoSockets.connections = [3] ∧
      (ControlSockets.listening ∈ afterNoSockets.winsock.openHandles ↔
        afterNoSockets.overdrawn = false) ∧
      (afterNoSockets.overdrawn = false →
        afterNoSockets.winsock.count + afterNoSockets.shutdowns = 1 + afterNoSockets.opened) ∧
      (afterNoSockets.overdrawn = false → afterNoSockets.hit = false →
        ∀ handle ∈ afterNoSockets.connections, handle ∈ afterNoSockets.winsock.openHandles) ∧
      afterNoSockets.nofSockets = afterNoSockets.connections.length + 1 :=
  ⟨by decide, by decide, control_sockets (Machine.reach_of_run rfl (Option.some_get _).symm)⟩

end NetShare
