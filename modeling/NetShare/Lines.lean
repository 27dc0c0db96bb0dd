import NetShare.ConfigurationWorker
import NetShare.Reasoning.Framing

/-!
# Lines on a connection

`Socket::ReceiveLine` and `Socket::SendLine` from `Socket.cpp`, the loop of
`ConfigurationWorker::run` and the loop `Answer` gets a connection into.  `recv` is asked for one
byte at a time, so it does not matter how the bytes arrive.
-/

namespace NetShare

open Reasoning

/-! ## 1. Sending and receiving -/

namespace Socket

def newline : UInt8 := 10

/-- What `recv` returns after the last byte: 0, or -1. -/
inductive Ending where
  | closed
  | failed
deriving DecidableEq

/-- `SendLine`: what goes out. -/
def sendLine (s : List UInt8) : List UInt8 := s ++ [newline]

/-- The loop of `ReceiveLine` with `ret` so far: what it returns and what is left. -/
def receiveLoop (ending : Ending) (ret : List UInt8) : List UInt8 → List UInt8 × List UInt8
  | [] =>
    match ending with
    | .closed => (ret, [])
    | .failed => ([], [])
  | r :: bytes =>
    if r = newline then (ret ++ [r], bytes) else receiveLoop ending (ret ++ [r]) bytes

def receiveLine (ending : Ending) (bytes : List UInt8) : List UInt8 × List UInt8 :=
  receiveLoop ending [] bytes

theorem receiveLoop_line {line : List UInt8} (h : newline ∉ line) (ending : Ending)
    (ret rest : List UInt8) :
    receiveLoop ending ret (line ++ newline :: rest) = (ret ++ sendLine line, rest) := by
  induction line generalizing ret with
  | nil => rfl
  | cons r line ih =>
    obtain ⟨hr, hline⟩ := List.ne_and_not_mem_of_not_mem_cons h
    rw [List.cons_append, receiveLoop, if_neg (Ne.symm hr), ih hline, sendLine, sendLine,
      List.append_assoc]
    rfl

/-- What is received of the bytes in front of the end of the connection. -/
def lastLine (tail : List UInt8) : Ending → List UInt8
  | .closed => tail
  | .failed => []

theorem receiveLoop_tail {tail : List UInt8} (h : newline ∉ tail) (ending : Ending)
    (ret : List UInt8) :
    receiveLoop ending ret tail = (lastLine (ret ++ tail) ending, []) := by
  induction tail generalizing ret with
  | nil => cases ending <;> simp [receiveLoop, lastLine]
  | cons r tail ih =>
    obtain ⟨hr, htail⟩ := List.ne_and_not_mem_of_not_mem_cons h
    rw [receiveLoop, if_neg (Ne.symm hr), ih htail, List.append_assoc]
    rfl

/-- **`ReceiveLine` returns what one `SendLine` sent**, with its newline, and leaves what was sent
after it. -/
theorem receiveLine_sendLine {line : List UInt8} (h : newline ∉ line) (ending : Ending)
    (rest : List UInt8) :
    receiveLine ending (sendLine line ++ rest) = (sendLine line, rest) := by
  rw [receiveLine, sendLine, List.append_assoc]
  exact receiveLoop_line h ending [] rest

-- A line that is not empty took a byte.
theorem receiveLine_shorter {ending : Ending} {bytes : List UInt8}
    (h : (receiveLine ending bytes).1 ≠ []) :
    (receiveLine ending bytes).2.length < bytes.length := by
  obtain ⟨lines, tail, rfl, hlines, htail⟩ := exists_frame newline bytes
  cases lines with
  | nil =>
    rw [frame_nil, List.nil_append, receiveLine, receiveLoop_tail htail] at h ⊢
    cases tail with
    | nil => cases ending <;> exact absurd rfl h
    | cons r tail => exact Nat.zero_lt_succ _
  | cons line lines =>
    obtain ⟨hline, -⟩ := List.forall_mem_cons.mp hlines
    rw [frame_cons, List.append_assoc, List.cons_append, receiveLine, receiveLoop_line hline]
    simp only [List.length_append, List.length_cons]
    omega

end Socket

/-! ## 2. The loop of a connection -/

namespace ConfigurationWorker

open Socket (Ending receiveLine receiveLine_shorter)

/-- `run` on a connection with these bytes to come.  `parse` stands for `Parse` of the line's
`c_str()`, and `env 0`, `env 1` and so on are what the handlers of the lines find. -/
def run (env : Nat → Environment) (parse : List UInt8 → Option Json) (ending : Ending)
    (bytes : List UInt8) : Handler Unit := do
  if (← get).running then
    if _hline : (receiveLine ending bytes).1 = [] then return
    else
      parseMessage (env 0) (parse (receiveLine ending bytes).1)
      run (fun k => env (k + 1)) parse ending (receiveLine ending bytes).2
  else return
termination_by bytes.length
decreasing_by exact receiveLine_shorter _hline

/-- The handlers of these requests one after the other, as long as the connection is to go on. -/
def handleAll (env : Nat → Environment) : List (Option Json) → Handler Unit
  | [] => return
  | request :: requests => do
    if (← get).running then
      parseMessage (env 0) request
      handleAll (fun k => env (k + 1)) requests
    else return

variable (env : Nat → Environment) (parse : List UInt8 → Option Json)

theorem exec_handleAll_cons (request : Option Json) (requests : List (Option Json)) (w : World) :
    (handleAll env (request :: requests)).exec w =
      if w.running then
        (parseMessage (env 0) request >>= fun _ =>
          handleAll (fun k => env (k + 1)) requests).exec w
      else (.ok (), w) := by
  rw [handleAll, HaltingM.exec_bind_of_ok (HaltingM.exec_get w)]
  split <;> rfl

theorem exec_run (ending : Ending) (bytes : List UInt8) (w : World) :
    (run env parse ending bytes).exec w =
      if w.running then
        if (receiveLine ending bytes).1 = [] then (.ok (), w)
        else (parseMessage (env 0) (parse (receiveLine ending bytes).1) >>= fun _ =>
          run (fun k => env (k + 1)) parse ending (receiveLine ending bytes).2).exec w
      else (.ok (), w) := by
  rw [run, HaltingM.exec_bind_of_ok (HaltingM.exec_get w)]
  split
  · split <;> rfl
  · rfl

/-- The lines that arrive whole, and what the end of the connection makes of the last one. -/
def receivedLines (lines : List (List UInt8)) (tail : List UInt8) (ending : Ending) :
    List (List UInt8) :=
  lines.map Socket.sendLine ++
    if Socket.lastLine tail ending = [] then [] else [Socket.lastLine tail ending]

theorem exec_run_tail {tail : List UInt8} (h : Socket.newline ∉ tail) (ending : Ending)
    (w : World) :
    (run env parse ending tail).exec w =
      (handleAll env ((receivedLines [] tail ending).map parse)).exec w := by
  have hline : receiveLine ending tail = (Socket.lastLine tail ending, []) :=
    Socket.receiveLoop_tail h ending []
  have hend : receiveLine ending [] = ([], []) := by cases ending <;> rfl
  rw [exec_run, hline, receivedLines, List.map_nil, List.nil_append]
  dsimp only
  by_cases hlast : Socket.lastLine tail ending = []
  · rw [if_pos hlast, if_pos hlast]
    split <;> rfl
  · rw [if_neg hlast, if_neg hlast, List.map_cons, List.map_nil, exec_handleAll_cons]
    -- the second round finds the end of the connection
    have hrest (env : Nat → Environment) (w : World) :
        (run env parse ending []).exec w = (handleAll env []).exec w := by
      rw [exec_run, hend, if_pos rfl]
      split <;> rfl
    split
    · rw [HaltingM.exec_bind, HaltingM.exec_bind]
      split
      · exact hrest _ _
      · rfl
    · rfl

/-- The bytes are these whole lines and this tail. -/
structure Received (bytes : List UInt8) (lines : List (List UInt8)) (tail : List UInt8) :
    Prop where
  bytes_eq : bytes = frame Socket.newline lines ++ tail
  lines : ∀ line ∈ lines, Socket.newline ∉ line
  tail : Socket.newline ∉ tail

/-- **A connection is served line by line.**  Whatever bytes come, in whatever pieces: they are in
one way whole lines and a tail, and `run` does what the handlers of these lines do in their order,
until one asks to close the connection or halts.  A tail without its newline is one more line if the
peer closed the connection, and is dropped if the connection failed. -/
theorem run_eq_handleAll (ending : Ending) (bytes : List UInt8) :
    ∃ lines tail, Received bytes lines tail ∧
      (∀ lines' tail', Received bytes lines' tail' → lines' = lines ∧ tail' = tail) ∧
      ∀ w : World, (run env parse ending bytes).exec w =
        (handleAll env ((receivedLines lines tail ending).map parse)).exec w := by
  obtain ⟨lines, tail, rfl, hlines, htail⟩ := exists_frame Socket.newline bytes
  refine ⟨lines, tail, ⟨rfl, hlines, htail⟩,
    fun lines' tail' h => frame_inj h.lines hlines h.tail htail h.bytes_eq.symm, ?_⟩
  induction lines generalizing env with
  | nil => exact exec_run_tail env parse htail ending
  | cons line lines ih =>
    intro w
    obtain ⟨hline, hlines⟩ := List.forall_mem_cons.mp hlines
    have hfirst : receiveLine ending (frame Socket.newline (line :: lines) ++ tail) =
        (Socket.sendLine line, frame Socket.newline lines ++ tail) := by
      rw [frame_cons, List.append_assoc, List.cons_append]
      exact Socket.receiveLoop_line hline ending [] _
    have hsent : Socket.sendLine line ≠ [] :=
      List.append_ne_nil_of_right_ne_nil line (List.cons_ne_nil _ _)
    rw [exec_run, hfirst, receivedLines, List.map_cons, List.cons_append, List.map_cons,
      exec_handleAll_cons]
    dsimp only
    rw [if_neg hsent]
    split
    · rw [HaltingM.exec_bind, HaltingM.exec_bind]
      split
      · exact ih _ hlines _
      · rfl
    · rfl

end ConfigurationWorker

end NetShare
