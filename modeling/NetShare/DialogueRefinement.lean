import NetShare.DialogueBytes
import Mathlib.Tactic.IntervalCases

/-!
# Bytes carry the lines of the dialogues

Whatever the clients and the daemon do byte by byte, they do line by line in a run of the dialogues:
a byte that does not end a line is no step there, and the byte that does is the receiving of that
line.  So the clients and the daemon do not get stuck over bytes either.
-/

namespace NetShare

open Reasoning ConfigurationWorker

variable {k : Nat} {rapidjson : Rapidjson} {command : Fin k → Command}

/-! ## 1. One direction -/

namespace Link

variable {link link' : Link} {lines : List (List UInt8)}

/-- These lines are in flight. -/
def Carries (link : Link) (lines : List (List UInt8)) : Prop :=
  InTransit Socket.newline link.ret link.stream lines

theorem Carries.sendLines (h : link.Carries lines) {more : List (List UInt8)}
    (hmore : ∀ line ∈ more, Socket.newline ∉ line) :
    (link.sendLines more).Carries (lines ++ more) := by
  unfold Carries
  rw [sendLines_ret, sendLines_stream]
  exact InTransit.send h hmore

theorem Carries.recv_none (h : link.Carries lines) (hrecv : link.recv = some (none, link')) :
    link'.Carries lines := by
  obtain ⟨ret, stream⟩ := link
  cases stream with
  | nil => contradiction
  | cons r stream =>
    simp only [recv] at hrecv
    split at hrecv
    next => cases hrecv
    next hr =>
      cases hrecv
      exact InTransit.receive h hr

theorem Carries.recv_some (h : link.Carries lines) {line : List UInt8}
    (hrecv : link.recv = some (some line, link')) :
    ∃ first rest, lines = first :: rest ∧ line = Socket.sendLine first ∧ link'.Carries rest := by
  obtain ⟨ret, stream⟩ := link
  cases stream with
  | nil => contradiction
  | cons r stream =>
    simp only [recv] at hrecv
    split at hrecv
    next hr =>
      cases hrecv
      subst hr
      obtain ⟨rest, hlines, hrest⟩ := InTransit.receive_mark h
      exact ⟨ret, rest, hlines, rfl, hrest⟩
    next => cases hrecv

-- As long as a line is in flight, so is a byte.
theorem Carries.recv_isSome (h : link.Carries lines) (hlines : lines ≠ []) :
    ∃ line link', link.recv = some (line, link') := by
  obtain ⟨r, stream, hstream⟩ := List.exists_cons_of_ne_nil (InTransit.stream_ne_nil h hlines)
  unfold recv
  rw [hstream]
  dsimp only
  split
  · exact ⟨_, _, rfl⟩
  · exact ⟨_, _, rfl⟩

/-- A connection never ends inside a line that `ReceiveLine` would return. -/
theorem Carries.lastLine (h : link.Carries lines) {ending : Socket.Ending}
    (hend : link.CanEnd ending) : Socket.lastLine link.ret ending = [] := by
  cases ending with
  | failed => rfl
  | closed =>
    have hstream := hend rfl
    unfold Carries at h
    rw [hstream] at h
    exact h.ret_eq_nil

end Link

/-! ## 2. What the lines mean -/

theorem Client.readLine_nil (rapidjson : Rapidjson) (command : Command) (c : Client) :
    c.readLine rapidjson command [] = c.goto (.left none) := by
  unfold readLine
  split
  · rfl
  · exact if_pos rfl

theorem sendLine_ne_nil (line : List UInt8) : Socket.sendLine line ≠ [] :=
  List.append_ne_nil_of_right_ne_nil line (List.cons_ne_nil _ _)

theorem Client.readLine_sendLine (hread : rapidjson.ReadsBack) (command : Command) (c : Client)
    {doc : Json} (hdoc : doc ∈ answerLines) :
    c.readLine rapidjson command (Socket.sendLine (rapidjson.write doc)) =
      c.receiveLine command doc := by
  have hback := hread.readBack doc (List.mem_append_right _ hdoc)
  unfold readLine
  rw [hback]
  exact if_neg (sendLine_ne_nil _)

namespace Wire

theorem readLine_nil (w : Wire k) (i : Fin k) :
    w.readLine rapidjson i [] = (w.daemon.next (.disconnect i)).map (w.put rapidjson) :=
  if_pos rfl

theorem readLine_sendLine (hread : rapidjson.ReadsBack) (w : Wire k) (i : Fin k) (r : Request) :
    w.readLine rapidjson i (Socket.sendLine (rapidjson.write r.line)) =
      (w.daemon.next (.request i r)).map (w.put rapidjson) := by
  have hback := hread.readBack r.line (line_mem_protocolLines r)
  unfold readLine
  rw [if_neg (sendLine_ne_nil _), hback]
  simp only [Option.bind_eq_bind, Option.bind_some, request?_line]

/-! ## 3. The dialogue behind the bytes -/

/-- The dialogue with these lines and requests in flight. -/
def dialogue (w : Wire k) (lines : Fin k → List Json) (requests : Fin k → List Request) :
    Dialogue k where
  daemon := { w.daemon with toClient := lines }
  client := w.client
  toDaemon := requests

/-- They are what the bytes in flight say. -/
structure Carries (rapidjson : Rapidjson) (w : Wire k) (lines : Fin k → List Json)
    (requests : Fin k → List Request) : Prop where
  toDaemon : ∀ i, (w.toDaemon i).Carries ((requests i).map fun r => rapidjson.write r.line)
  toClient : ∀ i, (w.toClient i).Carries ((lines i).map rapidjson.write)
  spoken : ∀ i, ∀ line ∈ lines i, line ∈ answerLines
  reason : w.app.crashReason ∈ crashReasons

variable {w w' : Wire k} {lines : Fin k → List Json} {requests : Fin k → List Request}

theorem put_toClient (lines : Fin k → List Json) (requests : Fin k → List Request) (i : Fin k)
    (t : Thread) :
    (w.dialogue lines requests).daemon.put i t =
      { w.daemon.put i t with toClient := fun j => lines j ++ (w.daemon.put i t).toClient j } := by
  have hlines : Function.update lines i (lines i ++ t.sent) =
      fun j => lines j ++ (w.daemon.put i t).toClient j := by
    funext j
    by_cases hj : j = i
    · subst hj
      rw [Function.update_self, Daemon.put_toClient_self]
      rfl
    · rw [Function.update_of_ne hj, Daemon.put_toClient_of_ne _ hj]
      exact (List.append_nil _).symm
  rw [← hlines]
  rfl

/-- The daemon does not look at the lines that it has sent. -/
theorem daemon_next (lines : Fin k → List Json) (requests : Fin k → List Request)
    {a : DaemonLabel k} {d : Daemon k} (h : w.daemon.next a = some d) :
    (w.dialogue lines requests).daemon.next a =
      some { d with toClient := fun i => lines i ++ d.toClient i } := by
  obtain ⟨halive, hcases⟩ := Daemon.next_cases h
  have halive' : (w.dialogue lines requests).daemon.alive = true := halive
  obtain ⟨i, r, rfl, hpc, rfl⟩ | ⟨i, outcome, t, rfl, ht, rfl⟩ | ⟨i, rfl, hpc, rfl⟩ := hcases
  · have hpc' : (w.dialogue lines requests).daemon.pc i = .receive := hpc
    rw [← put_toClient lines requests]
    simp only [Daemon.next, halive', if_true, hpc']
    rfl
  · have ht' : ((w.dialogue lines requests).daemon.thread i).step outcome = some t := ht
    rw [← put_toClient lines requests]
    simp only [Daemon.next, halive', if_true, ht', Option.map_some]
  · have hpc' : (w.dialogue lines requests).daemon.pc i = .receive := hpc
    rw [← put_toClient lines requests]
    simp only [Daemon.next, halive', if_true, hpc']
    rfl

namespace Carries

theorem withClient (h : w.Carries rapidjson lines requests) (i : Fin k) (c : Client) :
    (w.withClient i c).Carries rapidjson lines requests :=
  ⟨h.toDaemon, h.toClient, h.spoken, h.reason⟩

/-- A client takes a byte or a line. -/
theorem withLines (h : w.Carries rapidjson lines requests) {i : Fin k} {link : Link}
    {rest : List Json} (hlink : link.Carries (rest.map rapidjson.write))
    (hrest : ∀ line ∈ rest, line ∈ lines i) :
    (w.withLines i link).Carries rapidjson (Function.update lines i rest) requests := by
  refine ⟨h.toDaemon, fun j => ?_, fun j line hline => ?_, h.reason⟩
  · by_cases hj : j = i
    · subst hj
      simp only [Wire.withLines, Function.update_self]
      exact hlink
    · simp only [Wire.withLines, Function.update_of_ne hj]
      exact h.toClient j
  · by_cases hj : j = i
    · subst hj
      rw [Function.update_self] at hline
      exact h.spoken j line (hrest line hline)
    · rw [Function.update_of_ne hj] at hline
      exact h.spoken j line hline

/-- A request is sent, or the daemon takes a byte or a line. -/
theorem withRequests (h : w.Carries rapidjson lines requests) {i : Fin k} {link : Link}
    {rest : List Request} (hlink : link.Carries (rest.map fun r => rapidjson.write r.line)) :
    (w.withRequests i link).Carries rapidjson lines (Function.update requests i rest) := by
  refine ⟨fun j => ?_, h.toClient, h.spoken, h.reason⟩
  by_cases hj : j = i
  · subst hj
    simp only [Wire.withRequests, Function.update_self]
    exact hlink
  · simp only [Wire.withRequests, Function.update_of_ne hj]
    exact h.toDaemon j

theorem sendRequest (h : w.Carries rapidjson lines requests) (hread : rapidjson.ReadsBack)
    (i : Fin k) (r : Request) :
    (w.sendRequest rapidjson i r).Carries rapidjson lines
      (Function.update requests i (requests i ++ [r])) := by
  apply h.withRequests
  rw [List.map_append, List.map_singleton]
  have hline : ∀ line ∈ [rapidjson.write r.line], Socket.newline ∉ line := by
    intro line hline
    rw [List.mem_singleton.mp hline]
    exact hread.oneLine _ (line_mem_protocolLines r)
  exact (h.toDaemon i).sendLines hline

/-- A step of the daemon. -/
theorem put (h : w.Carries rapidjson lines requests) (hread : rapidjson.ReadsBack)
    {a : DaemonLabel k} {d : Daemon k} (hd : w.daemon.next a = some d) :
    (w.put rapidjson d).Carries rapidjson (fun i => lines i ++ d.toClient i) requests := by
  obtain ⟨hreason, hspoken⟩ := spoken_next h.reason hd
  refine ⟨h.toDaemon, fun i => ?_, fun i line hline => ?_, hreason⟩
  · rw [List.map_append]
    apply (h.toClient i).sendLines
    intro text htext
    obtain ⟨line, hline, rfl⟩ := List.mem_map.mp htext
    exact hread.oneLine line (List.mem_append_right _ (hspoken i line hline))
  · rcases List.mem_append.mp hline with hline | hline
    · exact h.spoken i line hline
    · exact hspoken i line hline

end Carries

/-! ## 4. Every step is one of the dialogue, or none -/

section

variable {w w' : Wire k} {lines : Fin k → List Json} {requests : Fin k → List Request}

/-- The dialogue of the state that a step leads to, in no more than one step. -/
def Follows (command : Fin k → Command) (rapidjson : Rapidjson) (s : Dialogue k) (w' : Wire k) :
    Prop :=
  ∃ lines requests,
    (dialogueMachine command).Leads (fun _ _ => True) s (w'.dialogue lines requests) ∧
      w'.Carries rapidjson lines requests

theorem Follows.single {s : Dialogue k} {a : DialogueLabel k} {lines : Fin k → List Json}
    {requests : Fin k → List Request}
    (hn : s.next command a = some (w'.dialogue lines requests))
    (h : w'.Carries rapidjson lines requests) : Follows command rapidjson s w' :=
  ⟨lines, requests, .single ⟨a, trivial, hn⟩, h⟩

/-- A client's byte or line. -/
theorem Carries.clientRecv (h : w.Carries rapidjson lines requests) (hread : rapidjson.ReadsBack)
    {i : Fin k} (hpc : (w.client i).pc = .receive) {line : Option (List UInt8)} {link : Link}
    (hrecv : (w.toClient i).recv = some (line, link)) :
    Follows command rapidjson (w.dialogue lines requests)
      (match line with
      | none => w.withLines i link
      | some line =>
        (w.withLines i link).withClient i ((w.client i).readLine rapidjson (command i) line)) := by
  cases line with
  | none =>
    have hsame := h.withLines ((h.toClient i).recv_none hrecv) fun _ hl => hl
    rw [Function.update_eq_self] at hsame
    exact ⟨lines, requests, .refl, hsame⟩
  | some line =>
    obtain ⟨first, rest, hlines, rfl, hlink⟩ := (h.toClient i).recv_some hrecv
    obtain ⟨doc, docs, hdocs, rfl, rfl⟩ := List.map_eq_cons_iff.mp hlines
    have hdoc := h.spoken i doc (hdocs ▸ List.mem_cons_self)
    dsimp only
    rw [Client.readLine_sendLine hread (command i) _ hdoc]
    have hnext : (w.dialogue lines requests).next command (.clientReceive i) =
        some ((((w.withLines i link).withClient i
          ((w.client i).receiveLine (command i) doc))).dialogue (Function.update lines i docs)
            requests) := by
      have hpc' : ((w.dialogue lines requests).client i).pc = .receive := hpc
      have hlines' : (w.dialogue lines requests).daemon.toClient i = doc :: docs := hdocs
      simp only [Dialogue.next, hpc', hlines']
      rfl
    apply Follows.single hnext
    apply Carries.withClient
    exact h.withLines hlink fun _ hl => hdocs ▸ List.mem_cons_of_mem doc hl

/-- The daemon's byte or line. -/
theorem Carries.daemonRecv (h : w.Carries rapidjson lines requests) (hread : rapidjson.ReadsBack)
    {i : Fin k} {line : Option (List UInt8)} {link : Link}
    (hrecv : (w.toDaemon i).recv = some (line, link))
    (hn : (match line with
      | none => some (w.withRequests i link)
      | some line => (w.withRequests i link).readLine rapidjson i line) = some w') :
    Follows command rapidjson (w.dialogue lines requests) w' := by
  cases line with
  | none =>
    cases hn
    have hsame := h.withRequests (i := i) ((h.toDaemon i).recv_none hrecv)
    rw [Function.update_eq_self] at hsame
    exact ⟨lines, requests, .refl, hsame⟩
  | some line =>
    obtain ⟨first, rest, hlines, rfl, hlink⟩ := (h.toDaemon i).recv_some hrecv
    obtain ⟨r, rs, hrs, rfl, rfl⟩ := List.map_eq_cons_iff.mp hlines
    dsimp only at hn
    rw [readLine_sendLine hread] at hn
    obtain ⟨d, hd, rfl⟩ := Option.map_eq_some_iff.mp hn
    have hnext : (w.dialogue lines requests).next command (.daemonReceive i) =
        some (((w.withRequests i link).put rapidjson d).dialogue
          (fun j => lines j ++ d.toClient j) (Function.update requests i rs)) := by
      have hrs' : (w.dialogue lines requests).toDaemon i = r :: rs := hrs
      simp only [Dialogue.next, hrs']
      rw [daemon_next lines requests (show w.daemon.next (.request i r) = some d from hd)]
      rfl
    exact .single hnext ((h.withRequests hlink).put hread hd)

/-- **What the bytes do, the lines do.** -/
theorem Carries.next (h : w.Carries rapidjson lines requests) (hread : rapidjson.ReadsBack)
    {a : WireLabel k} (hn : w.next rapidjson command a = some w') :
    Follows command rapidjson (w.dialogue lines requests) w' := by
  cases a with
  | clientSend i =>
    unfold Wire.next at hn
    dsimp only at hn
    split at hn
    next hpc =>
      cases hn
      have hpc' : ((w.dialogue lines requests).client i).pc = .sendRequest := hpc
      refine .single (a := .clientSend i) ?_ ((h.sendRequest hread i _).withClient i _)
      simp only [Dialogue.next, hpc']
      rfl
    next hpc =>
      cases hn
      have hpc' : ((w.dialogue lines requests).client i).pc = .sendClose := hpc
      refine .single (a := .clientSend i) ?_ ((h.sendRequest hread i _).withClient i _)
      simp only [Dialogue.next, hpc']
      rfl
    next => cases hn
  | clientRecv i =>
    unfold Wire.next at hn
    dsimp only at hn
    split at hn
    next hpc =>
      obtain ⟨⟨line, link⟩, hrecv, rfl⟩ := Option.map_eq_some_iff.mp hn
      have hfollows : Follows command rapidjson (w.dialogue lines requests) _ :=
        h.clientRecv hread hpc hrecv
      cases line <;> exact hfollows
    next => cases hn
  | clientEnd i ending =>
    unfold Wire.next at hn
    dsimp only at hn
    split at hn
    next hpc =>
      obtain ⟨⟨hended, hend⟩, hw⟩ := Option.ite_none_right_eq_some.mp hn
      rw [(h.toClient i).lastLine hend, Client.readLine_nil] at hw
      cases hw
      have hpc' : ((w.dialogue lines requests).client i).pc = .receive := hpc
      have hended' : (w.dialogue lines requests).Ended i := hended
      refine .single (a := .clientEnd i) ?_ (h.withClient i _)
      simp only [Dialogue.next, hpc', if_pos hended']
      rfl
    next => cases hn
  | daemonRecv i =>
    unfold Wire.next at hn
    dsimp only at hn
    obtain ⟨-, hn⟩ := Option.ite_none_right_eq_some.mp hn
    obtain ⟨⟨line, link⟩, hrecv, hw⟩ := Option.bind_eq_some_iff.mp hn
    apply h.daemonRecv hread hrecv
    cases line <;> exact hw
  | daemonEnd i ending =>
    unfold Wire.next at hn
    dsimp only at hn
    split at hn
    next last hpc =>
      obtain ⟨⟨-, hend⟩, hw⟩ := Option.ite_none_right_eq_some.mp hn
      rw [(h.toDaemon i).lastLine hend, readLine_nil] at hw
      obtain ⟨d, hd, rfl⟩ := Option.map_eq_some_iff.mp hw
      have hpc' : ((w.dialogue lines requests).client i).pc = .left last := hpc
      refine .single (a := .daemonEnd i) ?_ (h.put hread hd)
      simp only [Dialogue.next, hpc']
      rw [daemon_next lines requests hd]
      rfl
    next => cases hn
  | daemonStep i outcome =>
    obtain ⟨d, hd, rfl⟩ := Option.map_eq_some_iff.mp hn
    refine .single (a := .daemonStep i outcome) ?_ (h.put hread hd)
    simp only [Dialogue.next]
    rw [daemon_next lines requests hd]
    rfl

/-! ## 5. Runs -/

theorem carries_of_reach (hread : rapidjson.ReadsBack)
    (h : (wireMachine rapidjson command).Reach w) :
    ∃ lines requests, (dialogueMachine command).Reach (w.dialogue lines requests) ∧
      w.Carries rapidjson lines requests := by
  have hsimulated : ∃ s, (dialogueMachine command).Reach s ∧
      ∃ lines requests, s = w.dialogue lines requests ∧ w.Carries rapidjson lines requests := by
    refine h.simulate (R := fun w s => ∃ lines requests, s = w.dialogue lines requests ∧
      w.Carries rapidjson lines requests) ?_ ?_
    · intro w hw
      obtain ⟨app, hreason, rfl⟩ := hw
      refine ⟨_, ⟨app, rfl⟩, fun _ => [], fun _ => [], rfl, fun _ => .nil, fun _ => .nil, ?_,
        hreason⟩
      exact fun _ _ hl => absurd hl List.not_mem_nil
    · intro w s a w' hR _ hn
      obtain ⟨lines, requests, rfl, hcarries⟩ := hR
      obtain ⟨lines', requests', hleads, hcarries'⟩ := hcarries.next hread hn
      exact ⟨_, hleads, lines', requests', rfl, hcarries'⟩
  obtain ⟨s, hs, lines, requests, rfl, hcarries⟩ := hsimulated
  exact ⟨lines, requests, hs, hcarries⟩

/-- The daemon can take a step whatever is in flight to the clients. -/
theorem daemon_next_isSome {a : DaemonLabel k} {d' : Daemon k}
    (h : (w.dialogue lines requests).daemon.next a = some d') : ∃ d, w.daemon.next a = some d := by
  obtain ⟨halive, hcases⟩ := Daemon.next_cases h
  have halive' : w.daemon.alive = true := halive
  obtain ⟨i, r, rfl, hpc, rfl⟩ | ⟨i, outcome, t, rfl, ht, rfl⟩ | ⟨i, rfl, hpc, rfl⟩ := hcases
  · have hpc' : w.daemon.pc i = .receive := hpc
    simp only [Daemon.next, halive', if_true, hpc']
    exact ⟨_, rfl⟩
  · have ht' : (w.daemon.thread i).step outcome = some t := ht
    simp only [Daemon.next, halive', if_true, ht', Option.map_some]
    exact ⟨_, rfl⟩
  · have hpc' : w.daemon.pc i = .receive := hpc
    simp only [Daemon.next, halive', if_true, hpc']
    exact ⟨_, rfl⟩

-- For a line and for the end of the connection the thread has to be in `ReceiveLine`.
theorem receiving_of_request {d' : Daemon k} {i : Fin k} {r : Request}
    (h : (w.dialogue lines requests).daemon.next (.request i r) = some d') :
    w.receiving i = true := by
  obtain ⟨halive, ⟨_, _, ⟨⟩, hpc, -⟩ | ⟨_, _, _, ⟨⟩, -, -⟩ | ⟨_, ⟨⟩, -, -⟩⟩ := Daemon.next_cases h
  have halive' : w.alive = true := halive
  have hpc' : w.pc i = .receive := hpc
  simp only [receiving, halive', hpc', Bool.and_self]

theorem receiving_of_disconnect {d' : Daemon k} {i : Fin k}
    (h : (w.dialogue lines requests).daemon.next (.disconnect i) = some d') :
    w.receiving i = true := by
  obtain ⟨halive, ⟨_, _, ⟨⟩, -, -⟩ | ⟨_, _, _, ⟨⟩, -, -⟩ | ⟨_, ⟨⟩, hpc, -⟩⟩ := Daemon.next_cases h
  have halive' : w.alive = true := halive
  have hpc' : w.pc i = .receive := hpc
  simp only [receiving, halive', hpc', Bool.and_self]

/-- **What the lines can do, the bytes can.** -/
theorem Carries.progress (h : w.Carries rapidjson lines requests) (hread : rapidjson.ReadsBack)
    {a : DialogueLabel k} {s' : Dialogue k}
    (hn : (w.dialogue lines requests).next command a = some s') :
    ∃ b : WireLabel k, b.connection = a.connection ∧
      (w.next rapidjson command b).isSome = true := by
  cases a with
  | clientSend i =>
    refine ⟨.clientSend i, rfl, ?_⟩
    unfold Dialogue.next at hn
    dsimp only [dialogue] at hn
    split at hn
    next hpc => simp only [Wire.next, hpc, Option.isSome_some]
    next hpc => simp only [Wire.next, hpc, Option.isSome_some]
    next => cases hn
  | clientReceive i =>
    refine ⟨.clientRecv i, rfl, ?_⟩
    unfold Dialogue.next at hn
    dsimp only [dialogue] at hn
    split at hn
    next line rest hpc hlines =>
      have hne : (lines i).map rapidjson.write ≠ [] := by
        rw [hlines]
        exact List.cons_ne_nil _ _
      obtain ⟨text, link, hrecv⟩ := (h.toClient i).recv_isSome hne
      simp only [Wire.next, hpc, hrecv, Option.map_some, Option.isSome_some]
    next => cases hn
  | clientEnd i =>
    refine ⟨.clientEnd i .failed, rfl, ?_⟩
    unfold Dialogue.next at hn
    dsimp only [dialogue] at hn
    split at hn
    next hpc =>
      obtain ⟨hended, -⟩ := Option.ite_none_right_eq_some.mp hn
      have hcan : w.Ended i ∧ (w.toClient i).CanEnd .failed := ⟨hended, fun hno => by cases hno⟩
      simp only [Wire.next, hpc, if_pos hcan, Option.isSome_some]
    next => cases hn
  | daemonReceive i =>
    refine ⟨.daemonRecv i, rfl, ?_⟩
    unfold Dialogue.next at hn
    dsimp only at hn
    split at hn
    next => cases hn
    next r rs hrs =>
      obtain ⟨d', hd', -⟩ := Option.map_eq_some_iff.mp hn
      have hrs' : requests i = r :: rs := hrs
      have hne : (requests i).map (fun r => rapidjson.write r.line) ≠ [] := by
        rw [hrs']
        exact List.cons_ne_nil _ _
      obtain ⟨line, link, hrecv⟩ := (h.toDaemon i).recv_isSome hne
      simp only [Wire.next, receiving_of_request hd', if_true, hrecv,
        Option.bind_some]
      cases line with
      | none => rfl
      | some line =>
        obtain ⟨first, rest, hlines, rfl, -⟩ := (h.toDaemon i).recv_some hrecv
        rw [hrs'] at hlines
        obtain ⟨rfl, -⟩ := List.cons.inj hlines
        obtain ⟨d, hd⟩ := daemon_next_isSome hd'
        have hd₂ : (w.withRequests i link).daemon.next (.request i r) = some d := hd
        dsimp only
        rw [readLine_sendLine hread, hd₂]
        rfl
  | daemonEnd i =>
    refine ⟨.daemonEnd i .failed, rfl, ?_⟩
    unfold Dialogue.next at hn
    dsimp only at hn
    split at hn
    next last hpc =>
      obtain ⟨d', hd', -⟩ := Option.map_eq_some_iff.mp hn
      have hpc' : (w.client i).pc = .left last := hpc
      have hcan : w.receiving i = true ∧ (w.toDaemon i).CanEnd .failed :=
        ⟨receiving_of_disconnect hd', fun hno => by cases hno⟩
      obtain ⟨d, hd⟩ := daemon_next_isSome hd'
      simp only [Wire.next, hpc', if_pos hcan, Socket.lastLine, readLine_nil, hd, Option.map_some,
        Option.isSome_some]
    next => cases hn
  | daemonStep i outcome =>
    refine ⟨.daemonStep i outcome, rfl, ?_⟩
    obtain ⟨d', hd', -⟩ := Option.map_eq_some_iff.mp hn
    obtain ⟨d, hd⟩ := daemon_next_isSome hd'
    simp only [Wire.next, hd, Option.map_some, Option.isSome_some]

end

end Wire

/-- **Bytes carry the dialogues.**  In every run of the clients and the daemon over bytes, what has
happened is what happens in a run of the dialogues with whole lines, and the bytes in flight are the
lines in flight there.  As long as a client has not left, it can take a step or its thread can. -/
theorem bytes_carry_dialogues (hread : rapidjson.ReadsBack) {w : Wire k}
    (h : (wireMachine rapidjson command).Reach w) :
    (∃ lines requests, (dialogueMachine command).Reach (w.dialogue lines requests) ∧
        w.Carries rapidjson lines requests) ∧
      ∀ i, (∀ last, (w.client i).pc ≠ .left last) →
        ∃ a : WireLabel k, a.connection = i ∧ (w.next rapidjson command a).isSome = true := by
  obtain ⟨lines, requests, hreach, hcarries⟩ := Wire.carries_of_reach hread h
  refine ⟨⟨lines, requests, hreach, hcarries⟩, fun i hclient => ?_⟩
  obtain ⟨a, rfl, ha⟩ := dialogue_progress command hreach i hclient
  obtain ⟨s', hs'⟩ := Option.isSome_iff_exists.mp ha
  exact hcarries.progress hread hs'

/-! ## 6. An example -/

def stringText : Json → List UInt8
  | .string s => 34 :: bytesOf s ++ [34]
  | _ => bytesOf "null"

/-- The compact text of an object whose members have this text. -/
def objectText (text : Json → List UInt8) : Json → List UInt8
  | .object members =>
    let texts := members.map fun (name, v) => stringText (.string name) ++ 58 :: text v
    123 :: List.intercalate [44] texts ++ [125]
  | v => stringText v

/-- The text of an object of strings and of objects of strings, without anything to escape. -/
def lineText : Json → List UInt8 := objectText (objectText stringText)

/-- What rapidjson does with the lines of the protocol. -/
def rapidjsonOfLines : Rapidjson where
  write := lineText
  parse text := protocolLines.find? fun doc => Socket.sendLine (lineText doc) == text

theorem rapidjsonOfLines_readsBack : rapidjsonOfLines.ReadsBack where
  oneLine := by decide
  readBack doc hdoc := by
    obtain ⟨n, hn, rfl⟩ := List.getElem_of_mem hdoc
    have hlength : n < 14 := hn
    interval_cases n <;> rfl

/-- The client has sent its request, and the first bytes of it have come in. -/
def firstBytes (i : Fin k) : List (WireLabel k) :=
  [.clientSend i, .daemonRecv i, .daemonRecv i]

theorem bytes_carry_dialogues_firstBytes :
    let w := ((wireMachine rapidjsonOfLines fun _ : Fin 1 => startDriver).run {}
      (firstBytes 0)).get (by decide)
    (w.toDaemon 0).ret = bytesOf "\x7b\"" ∧
      (∃ lines requests, (dialogueMachine fun _ : Fin 1 => startDriver).Reach
          (w.dialogue lines requests) ∧ w.Carries rapidjsonOfLines lines requests) ∧
        ∀ i, (∀ last, (w.client i).pc ≠ .left last) →
          ∃ a : WireLabel 1, a.connection = i ∧
            (w.next rapidjsonOfLines (fun _ => startDriver) a).isSome = true :=
  ⟨by decide, bytes_carry_dialogues rapidjsonOfLines_readsBack
    (Machine.reach_of_run ⟨{}, by decide, rfl⟩ (Option.some_get _).symm)⟩

end NetShare
