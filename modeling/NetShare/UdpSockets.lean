import NetShare.AppConfig
import Mathlib.Data.List.Basic
import Mathlib.Tactic.Common

/-!
# The UDP sockets of the workers

`initSocket`, `closeSockets` and `shutdownWSA` from `UPDSocketWorker.cpp`, with `UDPWorkerConfig`
and what the functions use of Winsock: a start-up count for the whole process and the open sockets.
-/

namespace NetShare

/-! ## 1. Winsock -/

/-- An address and port as `sendto` and `recvfrom` see them. -/
structure SockAddr where
  address : NsIpAddress
  port : UInt16
deriving DecidableEq

structure OpenSocket where
  handle : Nat
  boundTo : Option SockAddr := none
deriving DecidableEq

/-- `count` is the number of start-ups that have not been cleaned up; `startups` and `cleanups` are
the successful `WSAStartup` calls and all `WSACleanup` calls so far. -/
structure Winsock where
  count : Nat
  startups : Nat
  cleanups : Nat
  nextHandle : Nat
  sockets : List OpenSocket
  handle_lt : ∀ s ∈ sockets, s.handle < nextHandle

namespace Winsock

/-- A `WSAStartup` that succeeds. -/
def WSAStartup (w : Winsock) : Winsock :=
  { w with count := w.count + 1, startups := w.startups + 1 }

/-- The last clean-up closes all sockets; one too many fails and changes nothing. -/
def WSACleanup (w : Winsock) : Winsock where
  count := w.count - 1
  startups := w.startups
  cleanups := w.cleanups + 1
  nextHandle := w.nextHandle
  sockets := if w.count = 1 then [] else w.sockets
  handle_lt s hs := by
    split at hs
    next => exact absurd hs List.not_mem_nil
    next => exact w.handle_lt s hs

/-- `socket`, with the handle it returns. -/
def socket (w : Winsock) : Nat × Winsock :=
  (w.nextHandle,
    { w with
      nextHandle := w.nextHandle + 1
      sockets := w.sockets ++ [{ handle := w.nextHandle }]
      handle_lt := by
        intro s hs
        obtain hs | hs := List.mem_append.mp hs
        · exact Nat.lt_succ_of_lt (w.handle_lt s hs)
        · rw [List.mem_singleton.mp hs]
          exact Nat.lt_succ_self _ })

def bind (w : Winsock) (handle : Nat) (address : SockAddr) : Winsock :=
  { w with
    sockets := w.sockets.map fun s =>
      if s.handle = handle then { s with boundTo := some address } else s
    handle_lt := by
      intro s hs
      obtain ⟨t, ht, rfl⟩ := List.mem_map.mp hs
      have hlt := w.handle_lt t ht
      split <;> exact hlt }

/-- `closesocket`; it fails on what is no open socket. -/
def closesocket (w : Winsock) (handle : Nat) : Winsock :=
  { w with
    sockets := w.sockets.filter fun s => s.handle ≠ handle
    handle_lt := fun s hs => w.handle_lt s (List.mem_of_mem_filter hs) }

end Winsock

/-! ## 2. The sockets of the workers -/

def INVALID_SOCKET : Nat := 2 ^ 64 - 1

/-- `UDPWorkerConfig` without its pointer to the shared `Config`; a new one is zeroed. -/
structure UDPWorkerConfig where
  socketIpv4Adress : NsIpAddress := {}
  socketPort : UInt16 := 0
  socket : Nat := 0
  reciever : Bool := false
  uid : UInt8 := 0
deriving DecidableEq

/-- How far an `initSocket` gets. -/
inductive InitSocketOutcome where
  | WSAStartupFails
  | socketFails
  | bindFails
  | ioctlsocketFails
  | succeeds
deriving DecidableEq

/-- `initSocket`.  It returns -1 if it fails and runs off its end if not; nobody looks at it. -/
def initSocket (outcome : InitSocketOutcome) (conf : UDPWorkerConfig) (w : Winsock) :
    UDPWorkerConfig × Winsock :=
  if outcome = .WSAStartupFails then (conf, w)
  else
    let w := w.WSAStartup
    if outcome = .socketFails then ({ conf with socket := INVALID_SOCKET }, w.WSACleanup)
    else
      let (socket, w) := w.socket
      let conf := { conf with socket }
      if outcome = .bindFails then (conf, (w.closesocket socket).WSACleanup)
      else
        let w := w.bind socket ⟨conf.socketIpv4Adress, conf.socketPort⟩
        if outcome = .ioctlsocketFails then (conf, (w.closesocket socket).WSACleanup)
        else (conf, w)

/-- `closeSockets`; a sender and its receiver have the same socket. -/
def closeSockets (configs : List UDPWorkerConfig) (w : Winsock) : Winsock :=
  configs.foldl (fun w conf => w.closesocket conf.socket) w

def shutdownWSA (w : Winsock) : Winsock := w.WSACleanup

/-! ## 3. What one `initSocket` leaves -/

namespace Winsock

-- Closing the socket opened last leaves the others.
theorem filter_newest (w : Winsock) {newest : OpenSocket} (h : newest.handle = w.nextHandle) :
    (w.sockets ++ [newest]).filter (fun s => s.handle ≠ w.nextHandle) = w.sockets := by
  have hkeep : w.sockets.filter (fun s => s.handle ≠ w.nextHandle) = w.sockets := by
    rw [List.filter_eq_self]
    intro s hs
    exact decide_eq_true (Nat.ne_of_lt (w.handle_lt s hs))
  rw [List.filter_append, hkeep, List.filter_cons_of_neg (by simpa using h), List.filter_nil,
    List.append_nil]

-- Binding the socket opened last does not touch the others.
theorem bind_newest (w : Winsock) (address : SockAddr) :
    (w.socket.2.bind w.nextHandle address).sockets =
      w.sockets ++ [{ handle := w.nextHandle, boundTo := some address }] := by
  have hkeep : w.sockets.map (fun s => if s.handle = w.nextHandle then
      { s with boundTo := some address } else s) = w.sockets := by
    rw [List.map_congr_left fun s hs => if_neg (Nat.ne_of_lt (w.handle_lt s hs)), List.map_id']
  show (w.sockets ++ [({ handle := w.nextHandle } : OpenSocket)]).map (fun s =>
    if s.handle = w.nextHandle then { s with boundTo := some address } else s) = _
  rw [List.map_append, hkeep, List.map_cons, if_pos rfl, List.map_nil]

-- What one failing call has started up it cleans up.
theorem WSACleanup_sockets (w : Winsock) :
    (∀ s ∈ w.WSACleanup.sockets, s ∈ w.sockets) ∧
      (w.count ≠ 1 → w.WSACleanup.sockets = w.sockets) := by
  simp only [WSACleanup]
  refine ⟨fun s hs => ?_, fun hcount => if_neg hcount⟩
  split at hs
  next => exact absurd hs List.not_mem_nil
  next => exact hs

end Winsock

/-- From `w` to `w'` Winsock has been started up and not cleaned up, and a socket bound and not
closed, `n` times.  Sockets of others are closed only by the last clean-up of all. -/
structure Opens (n : Nat) (w w' : Winsock) : Prop where
  nextHandle_le : w.nextHandle ≤ w'.nextHandle
  count : w'.count = w.count + n
  calls : w'.startups + w.cleanups = w.startups + w'.cleanups + n
  closed : n = 0 → ∀ s ∈ w'.sockets, s ∈ w.sockets
  kept : 0 < w.count → ∀ s ∈ w.sockets, s ∈ w'.sockets
  opened : 0 < n → ∃ s ∈ w'.sockets, w.nextHandle ≤ s.handle ∧ s.boundTo.isSome = true

theorem Opens.refl (w : Winsock) : Opens 0 w w :=
  ⟨Nat.le_refl _, rfl, rfl, fun _ _ hs => hs, fun _ _ hs => hs, fun h => absurd h (Nat.lt_irrefl 0)⟩

-- What one part has left open the next one keeps, since its start-up is still counted.
theorem Opens.trans {m n : Nat} {w w' w'' : Winsock} (h : Opens m w w') (h' : Opens n w' w'') :
    Opens (m + n) w w'' := by
  have hcount := h.count
  have hcalls := h.calls
  have hcount' := h'.count
  have hcalls' := h'.calls
  refine ⟨Nat.le_trans h.nextHandle_le h'.nextHandle_le, by omega, by omega, ?_, ?_, ?_⟩
  · exact fun hzero s hs => h.closed (by omega) s (h'.closed (by omega) s hs)
  · exact fun hpos s hs => h'.kept (by omega) s (h.kept hpos s hs)
  · intro hpos
    by_cases hn : 0 < n
    · obtain ⟨s, hs, hle, hbound⟩ := h'.opened hn
      exact ⟨s, hs, Nat.le_trans h.nextHandle_le hle, hbound⟩
    · obtain ⟨s, hs, hnew⟩ := h.opened (by omega)
      exact ⟨s, h'.kept (by omega) s hs, hnew⟩

-- A call that has opened a socket, bound or not, and closed it again.
theorem opens_of_closed {w : Winsock} (w' : Winsock) (hhandle : w.nextHandle ≤ w'.nextHandle)
    (hcount : w'.count = w.count + 1) (hstartups : w'.startups = w.startups + 1)
    (hcleanups : w'.cleanups = w.cleanups) (hsockets : w'.sockets = w.sockets) :
    Opens 0 w w'.WSACleanup := by
  obtain ⟨hsub, hsame⟩ := w'.WSACleanup_sockets
  refine ⟨hhandle, ?_, ?_, fun _ => hsockets ▸ hsub, fun hpos => ?_, fun h => ?_⟩
  · show w'.count - 1 = w.count + 0
    omega
  · show w'.startups + w.cleanups = w.startups + (w'.cleanups + 1) + 0
    omega
  · rw [hsame (by omega), hsockets]
    exact fun s hs => hs
  · exact absurd h (Nat.lt_irrefl 0)

/-- **Only an `initSocket` that succeeds leaves anything behind.** -/
theorem initSocket_opens (outcome : InitSocketOutcome) (conf : UDPWorkerConfig) (w : Winsock) :
    Opens (if outcome = .succeeds then 1 else 0) w (initSocket outcome conf w).2 := by
  cases outcome with
  | WSAStartupFails => exact .refl w
  | socketFails => exact opens_of_closed w.WSAStartup (Nat.le_refl _) rfl rfl rfl rfl
  | bindFails =>
    exact opens_of_closed (w.WSAStartup.socket.2.closesocket w.nextHandle) (Nat.le_succ _) rfl rfl
      rfl (w.WSAStartup.filter_newest rfl)
  | ioctlsocketFails =>
    have hsockets : ((w.WSAStartup.socket.2.bind w.nextHandle
        ⟨conf.socketIpv4Adress, conf.socketPort⟩).closesocket w.nextHandle).sockets =
          w.sockets := by
      show (w.WSAStartup.socket.2.bind w.WSAStartup.nextHandle _).sockets.filter
        (fun s => s.handle ≠ w.nextHandle) = w.sockets
      rw [w.WSAStartup.bind_newest]
      exact w.WSAStartup.filter_newest rfl
    exact opens_of_closed _ (Nat.le_succ _) rfl rfl rfl hsockets
  | succeeds =>
    have hsockets : (initSocket .succeeds conf w).2.sockets = w.sockets ++
        [{ handle := w.nextHandle
           boundTo := some ⟨conf.socketIpv4Adress, conf.socketPort⟩ }] :=
      w.WSAStartup.bind_newest ⟨conf.socketIpv4Adress, conf.socketPort⟩
    rw [if_pos rfl]
    refine ⟨Nat.le_succ _, rfl, ?_, fun h => ?_, fun _ s hs => ?_, fun _ => ?_⟩
    · show w.startups + 1 + w.cleanups = w.startups + w.cleanups + 1
      omega
    · exact absurd h Nat.one_ne_zero
    · rw [hsockets]
      exact List.mem_append_left _ hs
    · rw [hsockets]
      exact ⟨_, List.mem_append_right _ (List.mem_singleton_self _), Nat.le_refl _, rfl⟩

-- Closing the sockets of the workers is no start-up and no clean-up.
theorem closeSockets_calls (configs : List UDPWorkerConfig) (w : Winsock) :
    (closeSockets configs w).count = w.count ∧ (closeSockets configs w).startups = w.startups ∧
      (closeSockets configs w).cleanups = w.cleanups := by
  induction configs generalizing w with
  | nil => exact ⟨rfl, rfl, rfl⟩
  | cons conf configs ih =>
    obtain ⟨hcount, hstartups, hcleanups⟩ := ih (w.closesocket conf.socket)
    exact ⟨hcount, hstartups, hcleanups⟩

end NetShare
