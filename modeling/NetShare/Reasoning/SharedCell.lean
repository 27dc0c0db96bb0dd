import NetShare.Reasoning.Machine
import NetShare.Reasoning.Threads
import Mathlib.Algebra.Order.Group.Multiset

/-!
# Clients that update a shared cell in several steps

A client takes a request, reads the cell, computes the new value from what it has read, and writes
that back.  Where no client writes while another has read and not written yet, the updates are as if
they were made one after the other.
-/

namespace Reasoning

open Finset

namespace SharedCell

variable {ι ρ σ : Type*}

inductive Client (ρ σ : Type*) where
  | idle
  | asked (r : ρ)
  | loaded (r : ρ) (v : σ)
  | ready (r : ρ) (v : σ)

namespace Client

/-- The client has read the cell and not written it yet. -/
def hasRead : Client ρ σ → Bool
  | .loaded _ _ | .ready _ _ => true
  | _ => false

/-- The request that the client is working on. -/
def pending : Client ρ σ → Multiset ρ
  | .idle => 0
  | .asked r | .loaded r _ | .ready r _ => {r}

/-- What the client has read is still in the cell. -/
def UpToDate (update : ρ → σ → Option σ) (value : σ) : Client ρ σ → Prop
  | .loaded _ v => v = value
  | .ready r v => update r value = some v
  | _ => True

-- A client that has read nothing does not mind another value.
theorem upToDate_of_not_hasRead {update : ρ → σ → Option σ} {value : σ} {c : Client ρ σ}
    (h : c.hasRead = false) : c.UpToDate update value := by
  cases c with
  | loaded r v => cases h
  | ready r v => cases h
  | _ => trivial

end Client

/-- `requests` are all requests taken so far. -/
structure State (ι ρ σ : Type*) where
  value : σ
  clients : ι → Client ρ σ := fun _ => .idle
  requests : List ρ := []

inductive Label (ι ρ : Type*) where
  | request (i : ι) (r : ρ)
  | read (i : ι)
  | compute (i : ι)
  | write (i : ι)

section Serial

variable [Fintype ι] {update : ρ → σ → Option σ} {value : σ}

/-- The requests that have been written are applied one after the other, the others are being worked
on, and what has been read is still in the cell. -/
structure Serial (update : ρ → σ → Option σ) (value : σ) (s : State ι ρ σ) : Prop where
  order : ∃ done : List ρ, done.foldlM (fun v r => update r v) value = some s.value ∧
    (done : Multiset ρ) + ∑ i, (s.clients i).pending = s.requests
  upToDate : ∀ i, (s.clients i).UpToDate update s.value

/-- Once all clients are idle, the value is that of all requests in some order. -/
theorem Serial.of_idle {s : State ι ρ σ} (h : Serial update value s)
    (hidle : ∀ i, s.clients i = .idle) :
    ∃ order : List ρ, order.Perm s.requests ∧
      order.foldlM (fun v r => update r v) value = some s.value := by
  obtain ⟨done, hdone, hall⟩ := h.order
  have hnone : ∑ i, (s.clients i).pending = 0 :=
    sum_eq_zero fun i _ => by rw [hidle i, Client.pending]
  rw [hnone, add_zero] at hall
  exact ⟨done, Multiset.coe_eq_coe.mp hall, hdone⟩

end Serial

variable [DecidableEq ι]

-- One client moves, and the value it finds may be another.
theorem Client.upToDate_update {update : ρ → σ → Option σ} {value : σ} {clients : ι → Client ρ σ}
    {i : ι} {c : Client ρ σ} (hc : c.UpToDate update value)
    (hother : ∀ j, j ≠ i → (clients j).UpToDate update value) (j : ι) :
    (Function.update clients i c j).UpToDate update value := by
  by_cases hj : j = i
  · rw [hj, Function.update_self]
    exact hc
  · rw [Function.update_of_ne hj]
    exact hother j hj

def State.setClient (s : State ι ρ σ) (i : ι) (c : Client ρ σ) : State ι ρ σ :=
  { s with clients := Function.update s.clients i c }

/-- The machine of the clients of a cell with this value, where a request may not be applicable. -/
def machine (update : ρ → σ → Option σ) (value : σ) : Machine (State ι ρ σ) (Label ι ρ) where
  init s := s = { value }
  next s
    | .request i r =>
      match s.clients i with
      | .idle => some { s.setClient i (.asked r) with requests := s.requests ++ [r] }
      | _ => none
    | .read i =>
      match s.clients i with
      | .asked r => some (s.setClient i (.loaded r s.value))
      | _ => none
    | .compute i =>
      match s.clients i with
      | .loaded r v => (update r v).map fun w => s.setClient i (.ready r w)
      | _ => none
    | .write i =>
      match s.clients i with
      | .ready _ v => some { s.setClient i .idle with value := v }
      | _ => none

/-- Nobody is written over: at a write no other client has read and not written yet. -/
def Undisturbed (s : State ι ρ σ) : Label ι ρ → Prop
  | .write i => ∀ j, j ≠ i → (s.clients j).hasRead = false
  | _ => True

variable [Fintype ι] {update : ρ → σ → Option σ} {value : σ}

-- A client that goes on with its request changes neither the value nor what is pending.
theorem Serial.setClient {s : State ι ρ σ} (h : Serial update value s) {i : ι} {c : Client ρ σ}
    (hpending : c.pending = (s.clients i).pending) (hc : c.UpToDate update s.value) :
    Serial update value (s.setClient i c) := by
  obtain ⟨done, hdone, hall⟩ := h.order
  have hsum := sum_update_add Client.pending s.clients i c
  rw [hpending, add_left_inj] at hsum
  refine ⟨⟨done, hdone, ?_⟩, Client.upToDate_update hc fun j _ => h.upToDate j⟩
  show (done : Multiset ρ) + ∑ j, (Function.update s.clients i c j).pending = s.requests
  rw [hsum, hall]

theorem Serial.next {s t : State ι ρ σ} {a : Label ι ρ} (h : Serial update value s)
    (hok : Undisturbed s a) (hn : (machine update value).next s a = some t) :
    Serial update value t := by
  cases a with
  | request i r =>
    simp only [machine] at hn
    split at hn
    next hidle =>
      rw [Option.some.injEq] at hn
      subst hn
      obtain ⟨done, hdone, hall⟩ := h.order
      have hsum := sum_update_add Client.pending s.clients i (.asked r)
      rw [hidle, Client.pending, add_zero, Client.pending] at hsum
      refine ⟨⟨done, hdone, ?_⟩, Client.upToDate_update trivial fun j _ => h.upToDate j⟩
      show (done : Multiset ρ) + ∑ j, (Function.update s.clients i (.asked r) j).pending =
        ((s.requests ++ [r] : List ρ) : Multiset ρ)
      rw [hsum, ← add_assoc, hall, ← Multiset.coe_add, Multiset.coe_singleton]
    next => contradiction
  | read i =>
    simp only [machine] at hn
    split at hn
    next r hasked =>
      rw [Option.some.injEq] at hn
      subst hn
      exact h.setClient (by rw [hasked]; rfl) rfl
    next => contradiction
  | compute i =>
    simp only [machine] at hn
    split at hn
    next r v hloaded =>
      obtain ⟨w, hw, rfl⟩ := Option.map_eq_some_iff.mp hn
      have hv := h.upToDate i
      rw [hloaded] at hv
      obtain rfl : v = s.value := hv
      exact h.setClient (by rw [hloaded]; rfl) hw
    next => contradiction
  | write i =>
    simp only [machine] at hn
    split at hn
    next r v hready =>
      rw [Option.some.injEq] at hn
      subst hn
      obtain ⟨done, hdone, hall⟩ := h.order
      have hcomputed := h.upToDate i
      rw [hready] at hcomputed
      have hsum := sum_update_add Client.pending s.clients i .idle
      rw [hready, Client.pending, Client.pending, add_zero] at hsum
      refine ⟨⟨done ++ [r], ?_, ?_⟩, Client.upToDate_update trivial fun j hj =>
        Client.upToDate_of_not_hasRead (hok j hj)⟩
      · rw [List.foldlM_append, hdone]
        show (update r s.value).bind some = some v
        rw [hcomputed, Option.bind_some]
      · show ((done ++ [r] : List ρ) : Multiset ρ) +
          ∑ j, (Function.update s.clients i .idle j).pending = s.requests
        rw [← Multiset.coe_add, Multiset.coe_singleton, add_assoc, add_comm ({r} : Multiset ρ),
          hsum, hall]
    next => contradiction

/-- **Updates that are not written over are serial.** -/
theorem serial_of_reachWhile {s : State ι ρ σ}
    (h : (machine update value).ReachWhile Undisturbed s) : Serial update value s := by
  refine h.invariant ?_ fun s a t hs hok hn => hs.next hok hn
  rintro s rfl
  refine ⟨⟨[], rfl, ?_⟩, fun _ => trivial⟩
  show ((0 : Multiset ρ)) + ∑ _i : ι, (0 : Multiset ρ) = 0
  rw [sum_const_zero, add_zero]

end SharedCell

end Reasoning
