import NetShare.UdpSockets
import NetShare.Workqueue
import NetShare.Reasoning.Machine
import NetShare.Reasoning.Threads

/-!
# A driver session

The worker threads of one started driver, from `WinTunLogic.h` and `UPDSocketWorker.cpp`, and the
part of `Application::shutdown` that stops them.  With `n` activated adapters there are
`ReceivePackets`, `SendPackets`, `n` senders and `n` receivers.

Each test of a flag, each queue operation and each call of the system is one step.  A `popX` is two
steps, its test of `released` and its locked part, and the second is taken only once its wait is
over.  What the system answers, and what an uninitialised variable holds, is in the labels.
-/

namespace NetShare

open Reasoning

/-! ## 1. What the system answers -/

def ERROR_NO_MORE_ITEMS : Nat := 259

/-- `WintunReceivePacket`: a packet, or null and a code for `GetLastError`. -/
inductive WintunRead (α : Type) where
  | packet (p : α)
  | failed (lastError : Nat)
deriving DecidableEq

/-- `sendto`; `error` is any code other than `WSAEWOULDBLOCK`. -/
inductive SendtoResult where
  | success
  | wouldBlock
  | error
deriving DecidableEq

inductive SelectResult where
  | ready
  | timeout
  | wouldBlock
  | error
deriving DecidableEq

/-- `recvfrom`; with a datagram it stores where this came from. -/
inductive RecvfromResult (α : Type) where
  | datagram (source : SockAddr) (p : α)
  | empty (source : SockAddr)
  | wouldBlock
  | error
deriving DecidableEq

/-- `WintunAllocateSendPacket`: null may mean a full ring or another error. -/
inductive AllocateResult where
  | allocated
  | overflow
  | failed
deriving DecidableEq

/-- Why a worker function returned. -/
inductive ExitCause where
  | stopped
  | readFailed (lastError : Nat)
  | sendFailed
  | selectFailed
  | recvFailed
  | exception
deriving DecidableEq

/-- The value it returned. -/
def ExitCause.code : ExitCause → Nat
  | .stopped => 0
  | .readFailed lastError => lastError
  | .sendFailed => 2819
  | .selectFailed => 2820
  | .recvFailed => 2820
  | .exception => 23512

/-! ## 2. Threads -/

/-- `ReceivePackets`: at the head of the loop, before `WintunReceivePacket`, holding a packet, in
`WaitForMultipleObjects`. -/
inductive ReceivePc (α : Type) where
  | test
  | receive
  | copy (p : α)
  | wait
  | returned (cause : ExitCause)
deriving DecidableEq

structure ReceivePackets (α : Type) where
  pc : ReceivePc α := .test
  runFor : Int := 11
deriving DecidableEq

/-- The array a `popX` returned, null or with an entry for each packet. -/
abbrev PacketList (α : Type) : Type := Option (List (Option α))

/-- `WorkSocket` with `reciever = false`: at the head of the loop, before the test of `released`
in `popSize`, in its wait, back from it, at the test of the `for` loop, between `sendto` and the
evaluation of its result.  `fault` is an access through a null or wild pointer. -/
inductive SenderPc (α : Type) where
  | test
  | enter
  | wait (elements : Nat)
  | recheck (packet : PacketList α) (elements : Nat)
  | loop (packet : PacketList α) (elements i : Nat)
  | sent (packet : PacketList α) (elements i : Nat) (iResult : SendtoResult)
  | returned (cause : ExitCause)
  | fault
deriving DecidableEq

/-- `SendPackets`: as the senders, with the test of `isRunning` inside the `for` loop. -/
inductive SendPacketsPc (α : Type) where
  | test
  | enter
  | wait (size : Nat)
  | loop (internalPacket : PacketList α) (size i : Nat)
  | send (internalPacket : PacketList α) (size i : Nat)
  | returned (cause : ExitCause)
  | fault
deriving DecidableEq

/-- `WorkSocket` with `reciever = true`: at the head of the loop, before `select`, after a timeout,
before `recvfrom`, holding a datagram, after pushing it. -/
inductive SocketReceiverPc (α : Type) where
  | test
  | select
  | timedOut
  | recvfrom
  | copy (p : α)
  | pushed (p : α)
  | returned (cause : ExitCause)
deriving DecidableEq

/-- `recvAddr` starts as the server's address and is overwritten by every `recvfrom`. -/
structure SocketReceiver (α : Type) where
  pc : SocketReceiverPc α := .test
  recvAddr : SockAddr
deriving DecidableEq

/-- Element `i` of a list a `popX` returned; `none` where reading and using it is a fault. -/
def PacketList.element {α : Type} (list : PacketList α) (i : Nat) : Option α :=
  list.bind fun entries => entries[i]?.join

/-! ## 3. From the tunnel to the sockets -/

/-- `accepted` are the packets pushed and not dropped and `sent` those of successful `sendto`
calls; `statsSent` are the amounts passed to `udpPacketSent`; `created` and `deleted` count
`WorkPacket`s. -/
structure OutgoingPath (α : Type) (n : Nat) where
  queue : Workqueue α
  receivePackets : ReceivePackets α := {}
  senders : Fin n → SenderPc α := fun _ => .test
  accepted : List α := []
  sent : List α := []
  statsSent : List Nat := []
  created : Nat := 0
  deleted : Nat := 0

/-- `run` is the thread's next own step, `throws` an exception from its allocation. -/
inductive ReceiveAct (α : Type) where
  | run
  | read (result : WintunRead α)
  | throws
deriving DecidableEq

/-- `uninitialised` is what `elements` holds until `popSize` writes it. -/
inductive SenderAct where
  | run
  | enter (uninitialised : Nat)
  | sendto (iResult : SendtoResult)
deriving DecidableEq

namespace OutgoingPath

variable {α : Type} {n : Nat}

def setReceive (o : OutgoingPath α n) (pc : ReceivePc α) : OutgoingPath α n :=
  { o with receivePackets := { o.receivePackets with pc } }

def setSender (o : OutgoingPath α n) (i : Fin n) (pc : SenderPc α) : OutgoingPath α n :=
  { o with senders := Function.update o.senders i pc }

/-- The thread takes a packet and queues it; a refused one is deleted. -/
def pushPacket (o : OutgoingPath α n) (p : α) : OutgoingPath α n :=
  let r := o.queue.push p
  { o with
    queue := r.queue
    accepted := if r.accepted then o.accepted ++ [p] else o.accepted
    created := o.created + 1
    deleted := if r.accepted then o.deleted else o.deleted + 1 }

def stepReceive (isRunning : Bool) (o : OutgoingPath α n) :
    ReceiveAct α → Option (OutgoingPath α n)
  | .run =>
    match o.receivePackets.pc with
    | .test => some (o.setReceive (if isRunning then .receive else .returned .stopped))
    | .copy p => some ((o.pushPacket p).setReceive .test)
    | .wait => some (o.setReceive .test)
    | _ => none
  | .read result =>
    match o.receivePackets.pc with
    | .receive =>
      let runFor := o.receivePackets.runFor - 1
      match result with
      | .packet p => some { o with receivePackets := { pc := .copy p, runFor } }
      | .failed lastError =>
        if lastError = ERROR_NO_MORE_ITEMS then
          if runFor ≤ 0 then some { o with receivePackets := { pc := .wait, runFor := 11 } }
          else some { o with receivePackets := { pc := .test, runFor } }
        else
          some { o with receivePackets := { pc := .returned (.readFailed lastError), runFor } }
    | _ => none
  | .throws =>
    match o.receivePackets.pc with
    | .copy _ => some (o.setReceive (.returned .exception))
    | _ => none

/-- Where a sender goes on after `sendto`: a refused packet is tried again by `i--` before the
increment of the loop. -/
def afterSendto (packet : PacketList α) (elements i : Nat) : SendtoResult → SenderPc α
  | .success => .loop packet elements (sizeTInc i)
  | .wouldBlock => .loop packet elements (sizeTInc (sizeTDec i))
  | .error => .returned .sendFailed

def stepSender (packetSize : α → Nat) (isRunning : Bool) (o : OutgoingPath α n) (i : Fin n) :
    SenderAct → Option (OutgoingPath α n)
  | .run =>
    match o.senders i with
    | .test => some (o.setSender i (if isRunning then .enter else .returned .stopped))
    | .wait elements =>
      if o.queue.waitDone then
        let r := o.queue.popSizeLocked 3
        some { o.setSender i (.recheck r.list (r.actualSize.getD elements)) with
          queue := r.queue }
      else none
    | .recheck packet elements =>
      some (o.setSender i (if isRunning then .loop packet elements 0 else .returned .stopped))
    | .loop _ elements idx => if idx < elements then none else some (o.setSender i .test)
    | .sent packet elements idx iResult =>
      match packet.element idx with
      | some p =>
        some { o.setSender i (afterSendto packet elements idx iResult) with
          statsSent := o.statsSent ++ [packetSize p] }
      | none => some (o.setSender i .fault)
    | _ => none
  | .enter uninitialised =>
    match o.senders i with
    | .enter =>
      if o.queue.released then
        let r := o.queue.popReleased
        some (o.setSender i (.recheck r.list (r.actualSize.getD uninitialised)))
      else some (o.setSender i (.wait uninitialised))
    | _ => none
  | .sendto iResult =>
    match o.senders i with
    | .loop packet elements idx =>
      if idx < elements then
        match packet.element idx with
        | some p =>
          some { o.setSender i (.sent packet elements idx iResult) with
            sent := if iResult = .success then o.sent ++ [p] else o.sent }
        | none => some (o.setSender i .fault)
      else none
    | _ => none

end OutgoingPath

/-! ## 4. From the sockets to the tunnel -/

structure IncomingPath (α : Type) (n : Nat) where
  queue : Workqueue α
  receivers : Fin n → SocketReceiver α
  sendPackets : SendPacketsPc α := .test
  statsReceived : List Nat := []
  created : Nat := 0
  deleted : Nat := 0

inductive SocketReceiverAct (α : Type) where
  | run
  | select (total : SelectResult)
  | recvfrom (iResult : RecvfromResult α)
deriving DecidableEq

inductive SendPacketsAct where
  | run
  | enter (uninitialised : Nat)
  | allocate (result : AllocateResult)
  | throws
deriving DecidableEq

namespace IncomingPath

variable {α : Type} {n : Nat}

def setReceiver (c : IncomingPath α n) (i : Fin n) (pc : SocketReceiverPc α) :
    IncomingPath α n :=
  { c with receivers := Function.update c.receivers i { c.receivers i with pc } }

/-- `recvfrom` stores the source of what it returns in `RecvAddr`. -/
def setReceiverFrom (c : IncomingPath α n) (i : Fin n) (source : SockAddr)
    (pc : SocketReceiverPc α) : IncomingPath α n :=
  { c with receivers := Function.update c.receivers i { pc, recvAddr := source } }

def setSend (c : IncomingPath α n) (pc : SendPacketsPc α) : IncomingPath α n :=
  { c with sendPackets := pc }

def pushPacket (c : IncomingPath α n) (p : α) : IncomingPath α n :=
  let r := c.queue.push p
  { c with
    queue := r.queue
    created := c.created + 1
    deleted := if r.accepted then c.deleted else c.deleted + 1 }

def stepReceiver (packetSize : α → Nat) (isRunning : Bool) (c : IncomingPath α n) (i : Fin n) :
    SocketReceiverAct α → Option (IncomingPath α n)
  | .run =>
    match (c.receivers i).pc with
    | .test => some (c.setReceiver i (if isRunning then .select else .returned .stopped))
    | .timedOut => some (c.setReceiver i (if isRunning then .test else .returned .stopped))
    | .copy p => some ((c.pushPacket p).setReceiver i (.pushed p))
    | .pushed p =>
      some { c.setReceiver i (if isRunning then .test else .returned .stopped) with
        statsReceived := c.statsReceived ++ [packetSize p] }
    | _ => none
  | .select total =>
    match (c.receivers i).pc with
    | .select =>
      match total with
      | .ready => some (c.setReceiver i .recvfrom)
      | .timeout => some (c.setReceiver i .timedOut)
      | .wouldBlock => some (c.setReceiver i .test)
      | .error => some (c.setReceiver i (.returned .selectFailed))
    | _ => none
  | .recvfrom iResult =>
    match (c.receivers i).pc with
    | .recvfrom =>
      match iResult with
      | .datagram source p => some (c.setReceiverFrom i source (.copy p))
      | .empty source => some (c.setReceiverFrom i source .test)
      | .wouldBlock => some (c.setReceiver i .test)
      | .error => some (c.setReceiver i (.returned .recvFailed))
    | _ => none

def stepSend (isRunning : Bool) (c : IncomingPath α n) :
    SendPacketsAct → Option (IncomingPath α n)
  | .run =>
    match c.sendPackets with
    | .test => some (c.setSend (if isRunning then .enter else .returned .stopped))
    | .wait size =>
      if c.queue.waitDone then
        let r := c.queue.popAllLocked
        some { c.setSend (.loop r.list (r.actualSize.getD size) 0) with queue := r.queue }
      else none
    | .loop internalPacket size idx =>
      if idx < size then
        some (c.setSend (if isRunning then .send internalPacket size idx else .returned .stopped))
      else some (c.setSend .test)
    | _ => none
  | .enter uninitialised =>
    match c.sendPackets with
    | .enter =>
      if c.queue.released then
        let r := c.queue.popReleased
        some (c.setSend (.loop r.list (r.actualSize.getD uninitialised) 0))
      else some (c.setSend (.wait uninitialised))
    | _ => none
  | .allocate _ =>
    match c.sendPackets with
    | .send internalPacket size idx =>
      -- sent, dropped because the ring is full, or logged: the loop goes on in each case
      match internalPacket.element idx with
      | some _ => some (c.setSend (.loop internalPacket size (sizeTInc idx)))
      | none => some (c.setSend .fault)
    | _ => none
  | .throws =>
    match c.sendPackets with
    | .wait _ => some (c.setSend (.returned .exception))
    | .send _ _ _ => some (c.setSend (.returned .exception))
    | _ => none

end IncomingPath

/-! ## 5. The session -/

/-- How far `Application::shutdown` has come. -/
inductive ShutdownPc where
  | idle
  | exitedSet
  | stopped
  | sendingReleased
  | released
deriving DecidableEq

/-- `isRunning` is the flag of `Config` that the workers test, `exited` the one of `Application`. -/
structure Session (α : Type) (n : Nat) where
  isRunning : Bool := true
  exited : Bool := false
  shutdown : ShutdownPc := .idle
  outgoing : OutgoingPath α n
  incoming : IncomingPath α n

inductive SessionLabel (α : Type) (n : Nat) where
  | receivePackets (a : ReceiveAct α)
  | sender (i : Fin n) (a : SenderAct)
  | sendPackets (a : SendPacketsAct)
  | receiver (i : Fin n) (a : SocketReceiverAct α)
  | shutdown
deriving DecidableEq

namespace Session

variable {α : Type} {n : Nat}

/-- `Application::isRunning`. -/
def applicationIsRunning (s : Session α n) : Bool := !s.exited

/-- The next statement of `shutdown` that another thread can see. -/
def stepShutdown (s : Session α n) : Option (Session α n) :=
  match s.shutdown with
  | .idle => some { s with exited := true, shutdown := .exitedSet }
  | .exitedSet => some { s with isRunning := false, shutdown := .stopped }
  | .stopped => some { s with
      outgoing := { s.outgoing with queue := s.outgoing.queue.releaseAll }
      shutdown := .sendingReleased }
  | .sendingReleased => some { s with
      incoming := { s.incoming with queue := s.incoming.queue.releaseAll }
      shutdown := .released }
  | .released => none

def next (packetSize : α → Nat) (s : Session α n) : SessionLabel α n → Option (Session α n)
  | .receivePackets a =>
    (s.outgoing.stepReceive s.isRunning a).map fun o => { s with outgoing := o }
  | .sender i a =>
    (s.outgoing.stepSender packetSize s.isRunning i a).map fun o => { s with outgoing := o }
  | .sendPackets a => (s.incoming.stepSend s.isRunning a).map fun c => { s with incoming := c }
  | .receiver i a =>
    (s.incoming.stepReceiver packetSize s.isRunning i a).map fun c => { s with incoming := c }
  | .shutdown => s.stepShutdown

/-- The state in which `run` has just started the workers of a driver with these queue capacity
and server address. -/
def start (capacity : Nat) (server : SockAddr) : Session α n where
  outgoing := { queue := Workqueue.new capacity }
  incoming := { queue := Workqueue.new capacity, receivers := fun _ => { recvAddr := server } }

end Session

/-- The sessions of a driver with `n` activated adapters. -/
def sessionMachine {α : Type} (packetSize : α → Nat) (n : Nat) :
    Machine (Session α n) (SessionLabel α n) where
  init s := ∃ capacity server, 1 ≤ capacity ∧ s = Session.start capacity server
  next := Session.next packetSize

end NetShare
