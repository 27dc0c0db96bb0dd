import NetShare.Workqueue
import NetShare.Reasoning.Machine

/-!
# What `popSize` and `popAll` return

One call with the caller's count variable, beside any number of pushes and releases.  The two
functions leave by the same exits, but store the count at different places before them.
-/

namespace NetShare

open Reasoning

/-! ## 1. One call -/

inductive PopFunction where
  | popSize (size : Nat)
  | popAll
deriving DecidableEq

/-- Where the call stands: before the first test of `released`, at the lock or in the wait behind
it, or back with its list. -/
inductive PopStage (α : Type) where
  | called
  | waiting
  | returned (list : Option (List (Option α)))

/-- The queue, the caller's variable and the call. -/
structure PopState (α : Type) where
  queue : Workqueue α
  count : Nat
  stage : PopStage α

/-- The steps of the other threads and of the call. -/
inductive PopLabel (α : Type) where
  | push (workPacket : α)
  | releaseAll
  | proceed

namespace PopFunction

variable {α : Type}

/-- From the return of the wait on. -/
def locked : PopFunction → Workqueue α → PopResult α
  | .popSize size, q => q.popSizeLocked size
  | .popAll, q => q.popAllLocked

/-- The call comes back; what it stored through its out-parameter is in the caller's variable. -/
def comeBack (s : PopState α) (r : PopResult α) : PopState α where
  queue := r.queue
  count := r.actualSize.getD s.count
  stage := .returned r.list

/-- `proceed` tests `released`, or evaluates the predicate of the wait with `m` held and, if it is
true, runs to the end. -/
def next (f : PopFunction) (s : PopState α) : PopLabel α → Option (PopState α)
  | .push workPacket => some { s with queue := (s.queue.push workPacket).queue }
  | .releaseAll => some { s with queue := s.queue.releaseAll }
  | .proceed =>
    match s.stage with
    | .called =>
      some (if s.queue.released then comeBack s s.queue.popReleased
        else { s with stage := .waiting })
    | .waiting => some (if s.queue.waitDone then comeBack s (f.locked s.queue) else s)
    | .returned _ => none

/-- A call on any queue, with any value in the caller's variable. -/
def machine (α : Type) (f : PopFunction) : Machine (PopState α) (PopLabel α) where
  init s := (∃ items, s.queue.Holds items) ∧ s.stage = .called
  next := f.next

/-- The count is the number of packets in the list, 0 if there is no list. -/
def Agrees (count : Nat) : Option (List (Option α)) → Prop
  | none => count = 0
  | some list => ∃ packets : List α, list = packets.map some ∧ count = packets.length

/-- The locked part would store 0 if it found the queue released. -/
def StoresZero (q : Workqueue α) : PopFunction → Prop
  | .popSize size => q.size = 0 ∨ size = 0
  | .popAll => True

instance (q : Workqueue α) : (f : PopFunction) → Decidable (f.StoresZero q)
  | .popSize _ => inferInstanceAs (Decidable (_ ∨ _))
  | .popAll => inferInstanceAs (Decidable True)

/-- The step does not take the first exit with another value than 0 in the caller's variable, nor
the second after storing another. -/
def Meets (f : PopFunction) (s : PopState α) : PopLabel α → Prop
  | .proceed =>
    match s.stage with
    | .called => s.queue.released = true → s.count = 0
    | .waiting => s.queue.released = true → f.StoresZero s.queue
    | .returned _ => True
  | _ => True

instance (f : PopFunction) (s : PopState α) : (a : PopLabel α) → Decidable (f.Meets s a)
  | .proceed =>
    match h : s.stage with
    | .called =>
      decidable_of_iff (s.queue.released = true → s.count = 0) (by simp only [Meets, h])
    | .waiting =>
      decidable_of_iff (s.queue.released = true → f.StoresZero s.queue) (by simp only [Meets, h])
    | .returned _ => isTrue (by simp only [Meets, h])
  | .push _ => isTrue trivial
  | .releaseAll => isTrue trivial

/-! ## 2. What the exits leave -/

-- A push on a queue leaves a queue.
theorem holds_push {q : Workqueue α} (h : ∃ items, q.Holds items) (workPacket : α) :
    ∃ items, (q.push workPacket).queue.Holds items := by
  obtain ⟨items, hitems⟩ := h
  by_cases hfull : q.size = q.capacity - 1
  · rw [Workqueue.push_full hfull]
    exact ⟨items, hitems⟩
  · exact ⟨_, (Workqueue.push_room hitems hfull workPacket).2.1⟩

/-- The exit before the lock: the caller's variable is as it was. -/
theorem agrees_popReleased (s : PopState α) :
    Agrees (comeBack s s.queue.popReleased).count s.queue.popReleased.list ↔ s.count = 0 :=
  Iff.rfl

/-- The exit behind the wait on a released queue. -/
theorem agrees_locked_of_released (f : PopFunction) (s : PopState α)
    (hreleased : s.queue.released = true) :
    Agrees (comeBack s (f.locked s.queue)).count (f.locked s.queue).list ↔
      f.StoresZero s.queue := by
  cases f with
  | popSize size =>
    have hmin : (if s.queue.size < size then s.queue.size else size) = 0 ↔
        s.queue.size = 0 ∨ size = 0 := by
      split <;> omega
    rw [StoresZero, ← hmin]
    simp only [locked, Workqueue.popSizeLocked, hreleased, if_true, comeBack, Option.getD_some,
      Agrees]
  | popAll =>
    simp only [locked, Workqueue.popAllLocked, hreleased, if_true, comeBack, Option.getD_some,
      Agrees, StoresZero]

/-- The exits with a list: the count is that of the packets in it. -/
theorem agrees_locked (f : PopFunction) (s : PopState α) (h : ∃ items, s.queue.Holds items)
    (hreleased : s.queue.released = false) :
    Agrees (comeBack s (f.locked s.queue)).count (f.locked s.queue).list := by
  obtain ⟨items, hitems⟩ := h
  cases f with
  | popSize size =>
    obtain ⟨hlist, hsize, -⟩ := Workqueue.popSizeLocked_holds hitems hreleased size
    rw [locked, hlist, comeBack, hsize]
    refine ⟨items.take size, rfl, ?_⟩
    rw [List.length_take, Nat.min_comm]
    rfl
  | popAll =>
    obtain ⟨hlist, hsize, -⟩ := Workqueue.popAllLocked_holds hitems hreleased
    rw [locked, hlist, comeBack, hsize]
    exact ⟨items, rfl, rfl⟩

/-! ## 3. Whole calls -/

/-- What a step of a call that is not back yet can do: others change the queue, the call goes on,
or it comes back with a count that agrees with its list exactly if the step meets the condition. -/
theorem next_spec {f : PopFunction} {s t : PopState α} {a : PopLabel α}
    (h : ∃ items, s.queue.Holds items) (hstage : ∀ list, s.stage ≠ .returned list)
    (hnext : f.next s a = some t) :
    ((∃ items, t.queue.Holds items) ∧ (∀ list, t.stage ≠ .returned list) ∧ f.Meets s a) ∨
      ∃ list, t.stage = .returned list ∧ (Agrees t.count list ↔ f.Meets s a) := by
  cases a with
  | push workPacket =>
    obtain rfl := Option.some.inj hnext
    exact .inl ⟨holds_push h workPacket, hstage, trivial⟩
  | releaseAll =>
    obtain rfl := Option.some.inj hnext
    obtain ⟨items, hitems⟩ := h
    exact .inl ⟨⟨items, hitems.releaseAll⟩, hstage, trivial⟩
  | proceed =>
    cases hs : s.stage with
    | returned list => exact absurd hs (hstage list)
    | called =>
      simp only [next, hs, Option.some.injEq] at hnext
      cases hreleased : s.queue.released with
      | true =>
        rw [if_pos hreleased] at hnext
        rw [← hnext]
        refine .inr ⟨none, rfl, ?_⟩
        simp only [Meets, hs, hreleased, true_imp_iff]
        exact agrees_popReleased s
      | false =>
        rw [if_neg (by simp only [hreleased, Bool.false_eq_true, not_false_eq_true])] at hnext
        rw [← hnext]
        refine .inl ⟨h, ?_, ?_⟩
        · intro list hlist
          cases hlist
        · simp only [Meets, hs, hreleased, Bool.false_eq_true, false_imp_iff]
    | waiting =>
      simp only [next, hs, Option.some.injEq] at hnext
      by_cases hdone : s.queue.waitDone = true
      · rw [if_pos hdone] at hnext
        rw [← hnext]
        refine .inr ⟨(f.locked s.queue).list, rfl, ?_⟩
        simp only [Meets, hs]
        cases hreleased : s.queue.released with
        | true =>
          rw [agrees_locked_of_released f s hreleased]
          exact ⟨fun hzero _ => hzero, fun hzero => hzero rfl⟩
        | false =>
          exact iff_of_true (agrees_locked f s h hreleased) fun hfalse => Bool.noConfusion hfalse
      · rw [if_neg hdone] at hnext
        rw [← hnext]
        refine .inl ⟨h, hstage, ?_⟩
        -- a released queue would have ended the wait
        simp only [Meets, hs]
        intro hreleased
        rw [Workqueue.waitDone, hreleased, Bool.or_true] at hdone
        exact absurd rfl hdone

-- After the return only the other threads have steps left.
theorem next_of_returned {f : PopFunction} {s t : PopState α} {a : PopLabel α}
    {list : Option (List (Option α))} (hs : s.stage = .returned list)
    (hnext : f.next s a = some t) :
    t.stage = .returned list ∧ t.count = s.count ∧ f.Meets s a := by
  cases a with
  | push workPacket =>
    obtain rfl := Option.some.inj hnext
    exact ⟨hs, rfl, trivial⟩
  | releaseAll =>
    obtain rfl := Option.some.inj hnext
    exact ⟨hs, rfl, trivial⟩
  | proceed =>
    simp only [next, hs] at hnext
    contradiction

theorem run_of_returned {f : PopFunction} {s t : PopState α} {as : List (PopLabel α)}
    {list : Option (List (Option α))} (hs : s.stage = .returned list)
    (hrun : (machine α f).run s as = some t) :
    t.stage = .returned list ∧ t.count = s.count ∧
      (machine α f).runWhile f.Meets s as = some t := by
  induction as generalizing s with
  | nil =>
    obtain rfl := Option.some.inj hrun
    exact ⟨hs, rfl, rfl⟩
  | cons a as ih =>
    obtain ⟨u, hu, hrest⟩ := Option.bind_eq_some_iff.mp hrun
    obtain ⟨hstage, hcount, hmeets⟩ := next_of_returned hs hu
    obtain ⟨ht, hcount', hwhile⟩ := ih hstage hrest
    refine ⟨ht, hcount'.trans hcount, ?_⟩
    rw [Machine.runWhile, if_pos hmeets]
    exact Option.bind_eq_some_iff.mpr ⟨u, hu, hwhile⟩

theorem run_agrees_iff {f : PopFunction} {s t : PopState α} {as : List (PopLabel α)}
    {list : Option (List (Option α))} (h : ∃ items, s.queue.Holds items)
    (hstage : ∀ list, s.stage ≠ .returned list) (hrun : (machine α f).run s as = some t)
    (ht : t.stage = .returned list) :
    Agrees t.count list ↔ (machine α f).runWhile f.Meets s as = some t := by
  induction as generalizing s with
  | nil =>
    obtain rfl := Option.some.inj hrun
    exact absurd ht (hstage list)
  | cons a as ih =>
    obtain ⟨u, hu, hrest⟩ := Option.bind_eq_some_iff.mp hrun
    rw [Machine.runWhile]
    obtain ⟨hholds, hnot, hmeets⟩ | ⟨list', hback, hagrees⟩ := next_spec h hstage hu
    · rw [if_pos hmeets, hu, Option.bind_some]
      exact ih hholds hnot hrest
    · obtain ⟨ht', hcount, hwhile⟩ := run_of_returned hback hrest
      obtain rfl := PopStage.returned.inj (ht'.symm.trans ht)
      rw [hcount, hagrees]
      by_cases hmeets : f.Meets s a
      · rw [if_pos hmeets, hu, Option.bind_some]
        exact iff_of_true hmeets hwhile
      · rw [if_neg hmeets]
        exact iff_of_false hmeets (Option.some_ne_none t).symm

/-- **When the call returns, the count agrees with the list exactly if no step of it took a release
exit with another value than 0**: neither the first with what the caller had in its variable, nor
the second of `popSize` with the size it had stored before its test. -/
theorem return_agrees_iff {f : PopFunction} {s t : PopState α} {as : List (PopLabel α)}
    {list : Option (List (Option α))} (hinit : (machine α f).init s)
    (hrun : (machine α f).run s as = some t) (ht : t.stage = .returned list) :
    Agrees t.count list ↔ (machine α f).runWhile f.Meets s as = some t := by
  apply run_agrees_iff hinit.1 ?_ hrun ht
  intro list' hlist
  rw [hinit.2] at hlist
  cases hlist

/-- A call on an empty queue with room for three packets. -/
def emptyCall (count : Nat) : PopState Nat := ⟨.new 4, count, .called⟩

theorem emptyCall_init (f : PopFunction) (count : Nat) : (machine Nat f).init (emptyCall count) :=
  ⟨⟨[], Workqueue.new_holds (by decide)⟩, rfl⟩

/-- What it returns after one push. -/
def pushedReturn : PopState Nat where
  queue := (((Workqueue.new 4).push 5).queue.popSizeLocked 3).queue
  count := 1
  stage := .returned (some [some 5])

theorem return_agrees_iff_pushed :
    Agrees pushedReturn.count (some [some 5]) ↔
      (machine Nat (.popSize 3)).runWhile (Meets (.popSize 3)) (emptyCall 7)
        [.proceed, .push 5, .proceed] = some pushedReturn :=
  have hrun : (machine Nat (.popSize 3)).run (emptyCall 7) [.proceed, .push 5, .proceed] =
      some pushedReturn := rfl
  return_agrees_iff (emptyCall_init (.popSize 3) 7) hrun rfl

/-- A packet comes in during the wait, and the release before the waiter holds the lock again. -/
theorem popSize_released_disagrees :
    ¬ ∀ (f : PopFunction) (s t : PopState Nat) (as : List (PopLabel Nat))
        (list : Option (List (Option Nat))), (machine Nat f).init s →
      (machine Nat f).run s as = some t → t.stage = .returned list → Agrees t.count list := by
  intro hclaim
  have hcount : (1 : Nat) = 0 := hclaim (.popSize 3) (emptyCall 0) _
    [.proceed, .push 5, .releaseAll, .proceed] none (emptyCall_init (.popSize 3) 0) rfl rfl
  exact absurd hcount (by decide)

end PopFunction

end NetShare
