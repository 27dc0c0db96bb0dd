import NetShare.Reasoning.Machine
import NetShare.Reasoning.Threads

/-!
# The one application object

`Application::Get` from `Application.h`, called by the threads of the connections, the control
handler and `nsShutdown`.  It looks at the pointer before it takes the mutex and once more under it.
The threads see each other's assignments in the order in which they are made.
-/

namespace NetShare

open Reasoning Finset

/-! ## 1. The code -/

/-- Where a caller of `Get` is: at the first test of `instance`, before the `lock_guard`, at the
second test, before the constructor and the assignment, before the release of the mutex, at
`return`.  An object is known by its number, in the order in which they are built. -/
inductive GetPc where
  | idle
  | test
  | lock
  | testAgain
  | construct
  | assign (p : Nat)
  | unlock
  | read
  | returned (p : Option Nat)
deriving DecidableEq

/-- The static variables `m` and `instance`, how many objects were built, and the callers. -/
structure ApplicationGet (n : Nat) where
  m : Option (Fin n) := none
  applicationInstance : Option Nat := none
  constructed : Nat := 0
  pc : Fin n → GetPc := fun _ => .idle

/-- A caller begins a call, or goes on. -/
inductive GetLabel (n : Nat) where
  | call (i : Fin n)
  | step (i : Fin n)
deriving DecidableEq

def GetLabel.isCall {n : Nat} : GetLabel n → Bool
  | .call _ => true
  | .step _ => false

/-- The caller is not in a call. -/
def GetPc.isIdle : GetPc → Bool
  | .idle | .returned _ => true
  | _ => false

namespace ApplicationGet

variable {n : Nat}

def goto (s : ApplicationGet n) (i : Fin n) (pc : GetPc) : ApplicationGet n :=
  { s with pc := Function.update s.pc i pc }

def step (s : ApplicationGet n) (i : Fin n) : Option (ApplicationGet n) :=
  match s.pc i with
  | .idle | .returned _ => none
  | .test => some (s.goto i (if s.applicationInstance = none then .lock else .read))
  | .lock => if s.m = none then some ({ s with m := some i }.goto i .testAgain) else none
  | .testAgain => some (s.goto i (if s.applicationInstance = none then .construct else .unlock))
  | .construct =>
    some ({ s with constructed := s.constructed + 1 }.goto i (.assign s.constructed))
  | .assign p => some ({ s with applicationInstance := some p }.goto i .unlock)
  | .unlock => some ({ s with m := none }.goto i .read)
  | .read => some (s.goto i (.returned s.applicationInstance))

def next (s : ApplicationGet n) : GetLabel n → Option (ApplicationGet n)
  | .call i => if (s.pc i).isIdle then some (s.goto i .test) else none
  | .step i => s.step i

end ApplicationGet

def applicationGetMachine (n : Nat) : Machine (ApplicationGet n) (GetLabel n) where
  init s := s = {}
  next := ApplicationGet.next

/-! ## 2. One object -/

namespace GetPc

/-- The caller holds the mutex. -/
def inside : GetPc → Bool
  | .testAgain | .construct | .assign _ | .unlock => true
  | _ => false

def isAssigning : GetPc → Bool
  | .assign _ => true
  | _ => false

/-- What a caller knows about the pointer and the objects. -/
def Knows (applicationInstance : Option Nat) (constructed : Nat) : GetPc → Prop
  | .construct => applicationInstance = none ∧ constructed = 0
  | .assign p => applicationInstance = none ∧ constructed = 1 ∧ p = 0
  | .unlock | .read => applicationInstance = some 0
  | .returned p => p = some 0 ∧ applicationInstance = some 0
  | _ => True

end GetPc

namespace ApplicationGet

variable {n : Nat} {s t : ApplicationGet n}

/-- An object has been built if the pointer is set or about to be. -/
structure Sound (s : ApplicationGet n) : Prop where
  exclusive : Exclusive GetPc.inside s.m s.pc
  knows : ∀ i, (s.pc i).Knows s.applicationInstance s.constructed
  set : ∀ p, s.applicationInstance = some p → p = 0 ∧ s.constructed = 1
  unset : s.applicationInstance = none → (∀ i, (s.pc i).isAssigning = false) → s.constructed = 0

@[simp] theorem goto_pc_self (s : ApplicationGet n) (i : Fin n) (pc : GetPc) :
    (s.goto i pc).pc i = pc := Function.update_self ..

theorem goto_pc_of_ne (s : ApplicationGet n) {i j : Fin n} (h : j ≠ i) (pc : GetPc) :
    (s.goto i pc).pc j = s.pc j := Function.update_of_ne h ..

namespace Sound

/-- Who does not hold the mutex is not about to set the pointer. -/
theorem not_assigning (h : s.Sound) {i j : Fin n} (hi : (s.pc i).inside = true) (hj : j ≠ i) :
    (s.pc j).isAssigning = false ∧ s.pc j ≠ .construct := by
  have hout : (s.pc j).inside = false := by
    rw [← Bool.not_eq_true]
    exact fun hin => hj (h.exclusive.eq_of_inside hin hi)
  constructor
  · cases hpc : s.pc j <;> rw [hpc] at hout <;> first | rfl | cases hout
  · intro hpc
    rw [hpc] at hout
    cases hout

/-- A caller moves and nothing else changes. -/
theorem goto (h : s.Sound) {i : Fin n} {pc : GetPc} (hin : pc.inside = (s.pc i).inside)
    (hknows : pc.Knows s.applicationInstance s.constructed)
    (hassigning : pc.isAssigning = (s.pc i).isAssigning) : (s.goto i pc).Sound := by
  refine ⟨h.exclusive.move hin, fun j => ?_, h.set, fun hnone hall => h.unset hnone fun j => ?_⟩
  · by_cases hj : j = i
    · subst hj
      rw [goto_pc_self]
      exact hknows
    · rw [goto_pc_of_ne s hj]
      exact h.knows j
  · have hself := hall j
    by_cases hj : j = i
    · subst hj
      rw [goto_pc_self, hassigning] at hself
      exact hself
    · rwa [goto_pc_of_ne s hj] at hself

/-- The mutex is taken. -/
theorem lock (h : s.Sound) (hm : s.m = none) {i : Fin n} (hpc : s.pc i = .lock) :
    ({ s with m := some i }.goto i .testAgain).Sound := by
  have hmoved := h.exclusive
  rw [hm] at hmoved
  refine ⟨hmoved.lock i rfl, fun j => ?_, h.set, fun hnone hall => h.unset hnone fun j => ?_⟩
  · by_cases hj : j = i
    · subst hj
      rw [goto_pc_self]
      trivial
    · rw [goto_pc_of_ne _ hj]
      exact h.knows j
  · by_cases hj : j = i
    · rw [hj, hpc]
      rfl
    · have hself := hall j
      rwa [goto_pc_of_ne _ hj] at hself

/-- The mutex is released. -/
theorem unlock (h : s.Sound) {i : Fin n} (hpc : s.pc i = .unlock) :
    ({ s with m := none }.goto i .read).Sound := by
  have hknows := h.knows i
  have hexclusive := h.exclusive
  rw [(h.exclusive i).mp (by rw [hpc]; rfl)] at hexclusive
  rw [hpc] at hknows
  refine ⟨hexclusive.unlock rfl, fun j => ?_, h.set, fun hnone => ?_⟩
  · by_cases hj : j = i
    · subst hj
      rw [goto_pc_self]
      exact hknows
    · rw [goto_pc_of_ne _ hj]
      exact h.knows j
  · rw [show s.applicationInstance = some 0 from hknows] at hnone
    cases hnone

/-- The object is built. -/
theorem construct (h : s.Sound) {i : Fin n} (hpc : s.pc i = .construct) :
    ({ s with constructed := s.constructed + 1 }.goto i (.assign s.constructed)).Sound := by
  have hinside : (s.pc i).inside = true := by rw [hpc]; rfl
  have hknows := h.knows i
  rw [hpc] at hknows
  obtain ⟨hnone, hzero⟩ := hknows
  refine ⟨h.exclusive.move (by rw [hpc]; rfl), fun j => ?_, fun p hp => ?_, fun _ hall => ?_⟩
  · by_cases hj : j = i
    · subst hj
      rw [goto_pc_self, hzero]
      exact ⟨hnone, rfl, rfl⟩
    · rw [goto_pc_of_ne _ hj]
      -- the others have seen no object, and none of them builds one
      have hothers := h.knows j
      obtain ⟨hassign, hconstruct⟩ := h.not_assigning hinside hj
      show (s.pc j).Knows s.applicationInstance (s.constructed + 1)
      cases hcase : s.pc j with
      | construct => exact absurd hcase hconstruct
      | assign p =>
        rw [hcase] at hassign
        cases hassign
      | _ =>
        rw [hcase] at hothers
        exact hothers
  · rw [show s.applicationInstance = none from hnone] at hp
    cases hp
  · have hself := hall i
    rw [goto_pc_self] at hself
    cases hself

/-- The pointer is set. -/
theorem assign (h : s.Sound) {i : Fin n} {p : Nat} (hpc : s.pc i = .assign p) :
    ({ s with applicationInstance := some p }.goto i .unlock).Sound := by
  have hinside : (s.pc i).inside = true := by rw [hpc]; rfl
  have hknows := h.knows i
  rw [hpc] at hknows
  obtain ⟨hnone, hone, rfl⟩ := hknows
  refine ⟨h.exclusive.move (by rw [hpc]; rfl), fun j => ?_, fun q hq => ?_, fun hno => by cases hno⟩
  · by_cases hj : j = i
    · subst hj
      rw [goto_pc_self]
      rfl
    · rw [goto_pc_of_ne _ hj]
      have hothers := h.knows j
      obtain ⟨hassign, hconstruct⟩ := h.not_assigning hinside hj
      show (s.pc j).Knows (some 0) s.constructed
      cases hcase : s.pc j with
      | construct => exact absurd hcase hconstruct
      | assign p =>
        rw [hcase] at hassign
        cases hassign
      | unlock | read => rfl
      | returned p =>
        rw [hcase] at hothers
        exact ⟨hothers.1, rfl⟩
      | _ => trivial
  · obtain rfl := Option.some.inj hq
    exact ⟨rfl, hone⟩

/-- **Every step of a caller.** -/
theorem step (h : s.Sound) {i : Fin n} (hn : s.step i = some t) : t.Sound := by
  have hknows := h.knows i
  cases hpc : s.pc i with
  | idle | returned p => simp only [ApplicationGet.step, hpc, reduceCtorEq] at hn
  | test =>
    simp only [ApplicationGet.step, hpc, Option.some.injEq] at hn
    rw [← hn]
    split
    next => exact h.goto (by rw [hpc]; rfl) trivial (by rw [hpc]; rfl)
    next hset =>
      obtain ⟨p, hp⟩ := Option.ne_none_iff_exists'.mp hset
      have hzero := (h.set p hp).1
      rw [hzero] at hp
      exact h.goto (by rw [hpc]; rfl) hp (by rw [hpc]; rfl)
  | lock =>
    simp only [ApplicationGet.step, hpc] at hn
    obtain ⟨hm, hn⟩ := Option.ite_none_right_eq_some.mp hn
    obtain rfl := Option.some.inj hn
    exact h.lock hm hpc
  | testAgain =>
    have hinside : (s.pc i).inside = true := by rw [hpc]; rfl
    simp only [ApplicationGet.step, hpc, Option.some.injEq] at hn
    rw [← hn]
    split
    next hnone =>
      -- nobody else is about to set the pointer, so no object has been built
      have hzero : s.constructed = 0 := by
        apply h.unset hnone
        intro j
        by_cases hj : j = i
        · rw [hj, hpc]
          rfl
        · exact (h.not_assigning hinside hj).1
      exact h.goto (by rw [hpc]; rfl) ⟨hnone, hzero⟩ (by rw [hpc]; rfl)
    next hset =>
      obtain ⟨p, hp⟩ := Option.ne_none_iff_exists'.mp hset
      have hzero := (h.set p hp).1
      rw [hzero] at hp
      exact h.goto (by rw [hpc]; rfl) hp (by rw [hpc]; rfl)
  | construct =>
    simp only [ApplicationGet.step, hpc, Option.some.injEq] at hn
    exact hn ▸ h.construct hpc
  | assign p =>
    simp only [ApplicationGet.step, hpc, Option.some.injEq] at hn
    exact hn ▸ h.assign hpc
  | unlock =>
    simp only [ApplicationGet.step, hpc, Option.some.injEq] at hn
    exact hn ▸ h.unlock hpc
  | read =>
    simp only [ApplicationGet.step, hpc, Option.some.injEq] at hn
    rw [hpc] at hknows
    have hset : s.applicationInstance = some 0 := hknows
    rw [← hn]
    exact h.goto (by rw [hpc]; rfl) ⟨hset, hset⟩ (by rw [hpc]; rfl)

end Sound

theorem sound_of_reach (h : (applicationGetMachine n).Reach s) : s.Sound := by
  refine h.invariant ?_ fun s a t hs hn => ?_
  · rintro _ rfl
    exact ⟨.outside fun _ => rfl, fun _ => trivial, fun _ hno => (by cases hno), fun _ _ => rfl⟩
  · cases a with
    | call i =>
      obtain ⟨hidle, hn⟩ := Option.ite_none_right_eq_some.mp hn
      obtain rfl := Option.some.inj hn
      cases hpc : s.pc i with
      | idle | returned p => exact hs.goto (by rw [hpc]; rfl) trivial (by rw [hpc]; rfl)
      | _ =>
        rw [hpc] at hidle
        cases hidle
    | step i => exact hs.step hn

/-! ## 3. Every call returns -/

end ApplicationGet

def GetPc.rank : GetPc → Nat
  | .test => 7
  | .lock => 6
  | .testAgain => 5
  | .construct => 4
  | .assign _ => 3
  | .unlock => 2
  | .read => 1
  | .idle | .returned _ => 0

namespace ApplicationGet

variable {n : Nat} {s t : ApplicationGet n}

def rank (s : ApplicationGet n) : Nat := ∑ i, (s.pc i).rank

theorem step_lt {i : Fin n} (hn : s.step i = some t) : t.rank < s.rank := by
  have hmoved : ∃ pc : GetPc, t.pc = Function.update s.pc i pc ∧ pc.rank < (s.pc i).rank := by
    cases hpc : s.pc i with
    | idle | returned p => simp only [step, hpc, reduceCtorEq] at hn
    | lock =>
      simp only [step, hpc] at hn
      obtain ⟨-, hn⟩ := Option.ite_none_right_eq_some.mp hn
      obtain rfl := Option.some.inj hn
      exact ⟨_, rfl, by decide⟩
    | test | testAgain =>
      simp only [step, hpc, Option.some.injEq] at hn
      refine ⟨_, congrArg pc hn.symm, ?_⟩
      split <;> decide
    | construct | assign p | unlock | read =>
      simp only [step, hpc, Option.some.injEq] at hn
      exact ⟨_, congrArg pc hn.symm, Nat.le_of_ble_eq_true rfl⟩
  obtain ⟨pc, hpc, hlt⟩ := hmoved
  have hsum := sum_update_add GetPc.rank s.pc i pc
  unfold rank
  rw [hpc]
  omega

/-- The caller that holds the mutex can go on, and if nobody holds it every caller can. -/
theorem Sound.progress (h : s.Sound) (hbusy : ¬ ∀ i, (s.pc i).isIdle = true) :
    ∃ i, (s.step i).isSome = true := by
  cases hm : s.m with
  | none =>
    simp only [not_forall] at hbusy
    obtain ⟨i, hi⟩ := hbusy
    refine ⟨i, ?_⟩
    cases hpc : s.pc i with
    | idle | returned p =>
      rw [hpc] at hi
      exact absurd rfl hi
    | lock => simp only [ApplicationGet.step, hpc, hm, if_true, Option.isSome_some]
    | _ => simp only [ApplicationGet.step, hpc, Option.isSome_some]
  | some i =>
    have hin := (h.exclusive i).mpr hm
    refine ⟨i, ?_⟩
    cases hpc : s.pc i with
    | idle | returned p | test | lock | read =>
      rw [hpc] at hin
      cases hin
    | _ => simp only [ApplicationGet.step, hpc, Option.isSome_some]

end ApplicationGet

/-- **There is one application.**  However many threads call `Get`, and whenever: at most one object
is built, every call that has returned returned it, and the calls that are going on can return. -/
theorem application_single {n : Nat} {s : ApplicationGet n}
    (h : (applicationGetMachine n).Reach s) :
    s.constructed ≤ 1 ∧
      (∀ i p, s.pc i = .returned p → p = some 0 ∧ s.applicationInstance = some 0) ∧
      ∃ t, (applicationGetMachine n).Leads (fun _ a => a.isCall = false) s t ∧
        ∀ i, (t.pc i).isIdle = true := by
  have hsound := ApplicationGet.sound_of_reach h
  refine ⟨?_, fun i p hpc => ?_, ?_⟩
  · cases hinstance : s.applicationInstance with
    | some p => exact (hsound.set p hinstance).2.le
    | none =>
      by_cases hassigning : ∀ i, (s.pc i).isAssigning = false
      · rw [hsound.unset hinstance hassigning]
        exact Nat.zero_le 1
      · simp only [not_forall, Bool.not_eq_false] at hassigning
        obtain ⟨i, hi⟩ := hassigning
        have hknows := hsound.knows i
        cases hpc : s.pc i with
        | assign p =>
          rw [hpc] at hknows
          exact hknows.2.1.le
        | _ =>
          rw [hpc] at hi
          cases hi
  · have hknows := hsound.knows i
    rw [hpc] at hknows
    exact hknows
  · have hprogress (s : ApplicationGet n) (hs : s.Sound) (hbusy : ¬ ∀ i, (s.pc i).isIdle = true) :
        ∃ a t, a.isCall = false ∧ (applicationGetMachine n).next s a = some t ∧ t.Sound ∧
          t.rank < s.rank := by
      obtain ⟨i, hi⟩ := hs.progress hbusy
      obtain ⟨t, ht⟩ := Option.isSome_iff_exists.mp hi
      exact ⟨.step i, t, rfl, ht, hs.step ht, ApplicationGet.step_lt ht⟩
    have hend : ∃ t, (applicationGetMachine n).Leads (fun _ a => a.isCall = false) s t ∧
        t.Sound ∧ ∀ i, (t.pc i).isIdle = true :=
      Machine.leads_of_rank ApplicationGet.rank _ hprogress hsound
    obtain ⟨t, hleads, -, hidle⟩ := hend
    exact ⟨t, hleads, hidle⟩

/-- Both callers find the pointer unset; the second one gets the mutex after the first. -/
def bothUnset {n : Nat} (i j : Fin n) : List (GetLabel n) :=
  [.call i, .call j, .step i, .step j] ++ List.replicate 6 (.step i) ++ List.replicate 4 (.step j)

theorem application_single_bothUnset :
    let s := ((applicationGetMachine 2).run {} (bothUnset 0 1)).get (by decide)
    s.pc 1 = .returned (some 0) ∧ s.constructed ≤ 1 ∧
      (∀ i p, s.pc i = .returned p → p = some 0 ∧ s.applicationInstance = some 0) ∧
      ∃ t, (applicationGetMachine 2).Leads (fun _ a => a.isCall = false) s t ∧
        ∀ i, (t.pc i).isIdle = true :=
  ⟨by decide, application_single (Machine.reach_of_run rfl (Option.some_get _).symm)⟩

end NetShare
