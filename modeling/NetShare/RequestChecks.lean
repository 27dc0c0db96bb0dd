import NetShare.Answers

/-!
# Which requests are checked before they are used

The accessors of rapidjson assert what they rely on, so each access has to stand behind a check that
makes it safe.  The handlers check every member they use.  Only the document itself is never asked
whether it is an object, and one handler does not say that it knows no other state.
-/

namespace NetShare

open Reasoning ConfigurationWorker

/-! ## 1. What is asked of the handling of a line -/

/-- The requests that a handler knows, and those of type Delete, a type that `parseMessage` accepts
and has no handler for. -/
def Acceptable (doc : Json) : Prop :=
  doc.Asks "Get" "adapter.names" ∨
  doc.stringMember? "type" = some "Delete" ∨
  (doc.Asks "Put" "driver.state" ∧
    (doc.state? = some "running" ∨ doc.state? = some "stopped")) ∨
  (doc.Asks "Put" "deamon.state" ∧ doc.state? = some "stopped") ∨
  (doc.Asks "Put" "connection.state" ∧ doc.state? = some "closed") ∨
  (doc.Asks "Put" "config" ∧ ∃ data, doc.member? "data" = some data ∧ data.isObject = true)

/-- The line is refused with an error response, and nothing else happens. -/
def Refused (result : Except Halt Unit × World) (w : World) : Prop :=
  ∃ errorMessage, result = (.ok (), w.send (getErrorResponse errorMessage))

/-- No accessor is used against its precondition, and what is not acceptable is refused. -/
structure Checked (result : Except Halt Unit × World) (doc : Json) (w : World) : Prop where
  noAssertion : result.1 ≠ .error .assertion
  refused : ¬ Acceptable doc → Refused result w

/-- A Put of a connection state that is a string but not "closed". -/
def AsksOtherConnectionState (doc : Json) : Prop :=
  doc.Asks "Put" "connection.state" ∧ ∃ state, doc.state? = some state ∧ state ≠ "closed"

theorem Refused.checked {result : Except Halt Unit × World} {w : World} (h : Refused result w)
    (doc : Json) : Checked result doc w := by
  refine ⟨?_, fun _ => h⟩
  obtain ⟨errorMessage, rfl⟩ := h
  exact fun hassert => by cases hassert

theorem Acceptable.checked {doc : Json} (h : Acceptable doc) {result : Except Halt Unit × World}
    {w : World} (hresult : result.1 ≠ .error .assertion) : Checked result doc w :=
  ⟨hresult, fun hnot => absurd h hnot⟩

-- Who is refused gets a line.
theorem not_refused_of_silent {result : Except Halt Unit × World} {w : World}
    (h : result.2.sent = w.sent) : ¬ Refused result w := by
  rintro ⟨errorMessage, rfl⟩
  have hlen := congrArg List.length h
  rw [World.send_sent, List.length_append, List.length_singleton] at hlen
  omega

/-! ## 2. The handlers -/

section

variable {doc : Json} (w : World)

/-- Whatever a start or a stop comes to, no accessor is used against its precondition. -/
theorem driverState_noAssertion {state : String} (h : doc.state? = some state)
    (hstate : state = "running" ∨ state = "stopped") (outcome : StartOutcome) :
    ((parseDriverStatePutMessage outcome doc).exec w).1 ≠ .error .assertion := by
  cases hup : w.app.startingUp with
  | true =>
    rw [driverState_startingUp h hstate hup]
    exact fun hassert => by cases hassert
  | false =>
    rcases hstate with rfl | rfl
    · cases hex : w.app.exited with
      | false =>
        rw [driverState_run_running h hup hex]
        exact fun hassert => by cases hassert
      | true =>
        cases hinit : w.app.initRun outcome with
        | none =>
          rw [driverState_run_fault h hup hex hinit]
          exact fun hassert => by cases hassert
        | some result =>
          obtain ⟨successful, app₁⟩ := result
          cases hsucc : outcome.succeeds with
          | true =>
            obtain ⟨app', -, hexec, -⟩ := driverState_run_succeeds h hup hex hinit hsucc
            rw [hexec]
            exact fun hassert => by cases hassert
          | false =>
            rw [driverState_run_fails h hup hex hinit hsucc]
            exact fun hassert => by cases hassert
    · cases hex : w.app.exited with
      | true =>
        rw [driverState_stop_stopped h hup hex]
        exact fun hassert => by cases hassert
      | false =>
        cases hdown : w.app.shutdown with
        | none =>
          rw [driverState_stop_fault h hup hex hdown]
          exact fun hassert => by cases hassert
        | some app' =>
          rw [driverState_stop_running h hup hex hdown]
          exact fun hassert => by cases hassert

theorem driverState_checked (hasks : doc.Asks "Put" "driver.state") (hdoc : doc.isObject = true)
    (outcome : StartOutcome) :
    Checked ((parseDriverStatePutMessage outcome doc).exec w) doc w := by
  cases h : doc.state? with
  | none =>
    apply Refused.checked
    exact withState_of_none hdoc h _ _ w
  | some state =>
    by_cases hstate : state = "running" ∨ state = "stopped"
    · have hknown : doc.state? = some "running" ∨ doc.state? = some "stopped" := by
        rw [h]
        exact hstate.imp (congrArg some) (congrArg some)
      have hacc : Acceptable doc := .inr (.inr (.inl ⟨hasks, hknown⟩))
      exact hacc.checked (driverState_noAssertion w h hstate outcome)
    · rw [not_or] at hstate
      apply Refused.checked
      rw [parseDriverStatePutMessage, withState_of_state h, if_neg hstate.1, if_neg hstate.2]
      exact ⟨_, rfl⟩

theorem deamonState_checked (hasks : doc.Asks "Put" "deamon.state") (hdoc : doc.isObject = true) :
    Checked ((parseDeamonStatePutMessage doc).exec w) doc w := by
  cases h : doc.state? with
  | none =>
    apply Refused.checked
    exact withState_of_none hdoc h _ _ w
  | some state =>
    by_cases hstate : state = "stopped"
    · subst hstate
      have hacc : Acceptable doc := .inr (.inr (.inr (.inl ⟨hasks, h⟩)))
      apply hacc.checked
      cases hdown : w.app.shutdown with
      | none =>
        rw [deamonState_fault h hdown]
        exact fun hassert => by cases hassert
      | some app' =>
        rw [deamonState_exit h hdown]
        exact fun hassert => by cases hassert
    · apply Refused.checked
      rw [parseDeamonStatePutMessage, withState_of_state h, if_neg hstate]
      exact ⟨_, rfl⟩

-- The handler has no branch for another state, so nothing is sent.
theorem connectionState_checked_iff (hasks : doc.Asks "Put" "connection.state")
    (hdoc : doc.isObject = true) :
    Checked ((parseConnectionStatePutMessage doc).exec w) doc w ↔
      ¬ AsksOtherConnectionState doc := by
  cases h : doc.state? with
  | none =>
    apply iff_of_true
    · apply Refused.checked
      exact withState_of_none hdoc h _ _ w
    · rintro ⟨-, state, hstate, -⟩
      rw [h] at hstate
      contradiction
  | some state =>
    rw [parseConnectionStatePutMessage, withState_of_state h]
    by_cases hclosed : state = "closed"
    · subst hclosed
      have hacc : Acceptable doc := .inr (.inr (.inr (.inr (.inl ⟨hasks, h⟩))))
      apply iff_of_true
      · exact hacc.checked fun hassert => by cases hassert
      · rintro ⟨-, state, hstate, hne⟩
        exact hne (Option.some.inj (hstate.symm.trans h))
    · have hnot : ¬ Acceptable doc := by
        unfold Acceptable Json.Asks
        simp [hasks.1, hasks.2, h, hclosed]
      rw [if_neg hclosed]
      apply iff_of_false
      · exact fun hchecked => not_refused_of_silent rfl (hchecked.refused hnot)
      · exact fun hother => hother ⟨hasks, state, h, hclosed⟩

/-- Each of the six settings is read with the accessor that its check allows. -/
theorem config_checked (hasks : doc.Asks "Put" "config") (hdoc : doc.isObject = true)
    (env : Environment) : Checked ((parseConfigPutMessage env doc).exec w) doc w := by
  by_cases hdata : ∃ data, doc.member? "data" = some data ∧ data.isObject = true
  · have hacc : Acceptable doc := .inr (.inr (.inr (.inr (.inr ⟨hasks, hdata⟩))))
    obtain ⟨data, hd, hobj⟩ := hdata
    apply hacc.checked
    rw [exec_configPut hd hobj]
    dsimp only
    split
    · exact fun hassert => by cases hassert
    · split <;> exact fun hassert => by cases hassert
  · apply Refused.checked
    apply withData_of_not_object hdoc
    intro data hd
    cases hobj : data.isObject with
    | false => rfl
    | true => exact absurd ⟨data, hd, hobj⟩ hdata

end

/-! ## 3. The dispatch -/

-- A Put is checked by its handler, and only one of them lets something through.
theorem put_checked_iff (env : Environment) {doc : Json} (hdoc : doc.isObject = true)
    (htype : doc.stringMember? "type" = some "Put") (w : World) :
    Checked ((parsePutMessage env doc).exec w) doc w ↔ ¬ AsksOtherConnectionState doc := by
  rw [parsePutMessage]
  cases hon : doc.stringMember? "on" with
  | none =>
    apply iff_of_true
    · apply Refused.checked
      exact parseOn_of_none hdoc hon _ w
    · rintro ⟨⟨-, h⟩, -⟩
      rw [hon] at h
      contradiction
  | some on =>
    have hother : on ≠ "connection.state" → ¬ AsksOtherConnectionState doc := by
      rintro hne ⟨⟨-, h⟩, -⟩
      exact hne (Option.some.inj (hon.symm.trans h))
    rw [parseOn_of_on hon]
    by_cases hdriver : on = "driver.state"
    · subst hdriver
      rw [if_pos rfl]
      exact iff_of_true (driverState_checked w ⟨htype, hon⟩ hdoc env.start) (hother (by decide))
    by_cases hdeamon : on = "deamon.state"
    · subst hdeamon
      rw [if_neg (by decide), if_pos rfl]
      exact iff_of_true (deamonState_checked w ⟨htype, hon⟩ hdoc) (hother (by decide))
    by_cases hconnection : on = "connection.state"
    · subst hconnection
      rw [if_neg (by decide), if_neg (by decide), if_pos rfl]
      exact connectionState_checked_iff w ⟨htype, hon⟩ hdoc
    by_cases hconfig : on = "config"
    · subst hconfig
      rw [if_neg (by decide), if_neg (by decide), if_neg (by decide), if_pos rfl]
      exact iff_of_true (config_checked w ⟨htype, hon⟩ hdoc env) (hother (by decide))
    · rw [if_neg hdriver, if_neg hdeamon, if_neg hconnection, if_neg hconfig]
      apply iff_of_true
      · apply Refused.checked
        exact ⟨_, rfl⟩
      · exact hother hconnection

theorem get_checked {doc : Json} (hdoc : doc.isObject = true)
    (htype : doc.stringMember? "type" = some "Get") (w : World) :
    Checked ((parseGetMessage doc).exec w) doc w := by
  rw [parseGetMessage]
  cases hon : doc.stringMember? "on" with
  | none =>
    apply Refused.checked
    exact parseOn_of_none hdoc hon _ w
  | some on =>
    rw [parseOn_of_on hon]
    by_cases hadapter : on = "adapter.names"
    · subst hadapter
      have hacc : Acceptable doc := .inl ⟨htype, hon⟩
      exact hacc.checked fun hassert => by cases hassert
    · rw [if_neg hadapter]
      apply Refused.checked
      exact ⟨_, rfl⟩

/-- **A line is handled with all checks exactly if it is an object** that does not ask for another
connection state. -/
theorem handle_checked_iff (env : Environment) (doc : Json) (w : World) :
    Checked (handle env (some doc) w) doc w ↔
      doc.isObject = true ∧ ¬ AsksOtherConnectionState doc := by
  cases hdoc : doc.isObject with
  | false =>
    have hassert : (handle env (some doc) w).1 = .error .assertion := by
      rw [handle, parseMessage, HaltingM.exec_bind, hasMember, hdoc]
      rfl
    apply iff_of_false
    · exact fun hchecked => hchecked.noAssertion hassert
    · exact fun h => Bool.noConfusion h.1
  | true =>
    have hother : doc.stringMember? "type" ≠ some "Put" → ¬ AsksOtherConnectionState doc :=
      fun hne h => hne h.1.1
    simp only [true_and]
    rw [handle]
    cases htype : doc.stringMember? "type" with
    | none =>
      apply iff_of_true
      · apply Refused.checked
        exact parseMessage_of_none hdoc htype env w
      · exact hother (by rw [htype]; exact Option.some_ne_none _ ∘ Eq.symm)
    | some type =>
      rw [parseMessage_of_type htype]
      by_cases hget : type = "Get"
      · subst hget
        rw [if_pos rfl]
        exact iff_of_true (get_checked hdoc htype w) (hother (by rw [htype]; decide))
      by_cases hput : type = "Put"
      · subst hput
        rw [if_neg (by decide), if_pos rfl]
        exact put_checked_iff env hdoc htype w
      rw [htype] at hother
      have hno := hother fun h => hput (Option.some.inj h)
      by_cases hdelete : type = "Delete"
      · subst hdelete
        have hacc : Acceptable doc := .inr (.inl htype)
        rw [if_neg (by decide), if_neg (by decide), if_pos rfl]
        exact iff_of_true (hacc.checked fun hassert => by cases hassert) hno
      · rw [if_neg hget, if_neg hput, if_neg hdelete]
        exact iff_of_true (Refused.checked ⟨_, rfl⟩ doc) hno

/-- An array as a line makes the daemon look for a member of something that is no object. -/
theorem array_notChecked :
    ¬ ∀ (env : Environment) (doc : Json) (w : World),
      Checked (handle env (some doc) w) doc w := by
  intro hclaim
  have hchecked := hclaim (environmentOf goodStart) (.array []) {}
  exact hchecked.noAssertion rfl

end NetShare
