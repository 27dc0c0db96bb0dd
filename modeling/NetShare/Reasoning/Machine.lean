import Mathlib.Algebra.BigOperators.Group.List.Basic
import Mathlib.Algebra.GroupWithZero.Nat
import Mathlib.Logic.Relation
import Mathlib.Tactic.Common

/-!
# Machines — transition systems given by a partial step function

A machine has a set of initial states and a step function from a state and a label to the next
state, `none` where the label is not enabled.  All nondeterminism (which thread moves, what the
environment answers) is in the labels, so a concrete run is evaluated, not searched.

`ReachWhile ok` restricts the runs to those whose every step meets `ok` in the state before it;
`Reach` is the unrestricted case.

A rank that every step lowers bounds the length of a run.  Where some steps raise it, the run is
longer by what they have raised it.  If there is a step to take as long as something is left to do,
the machine can be brought to where nothing is.
-/

namespace Reasoning

/-- A labelled transition system with a partial, deterministic step function. -/
structure Machine (σ ℓ : Type*) where
  init : σ → Prop
  next : σ → ℓ → Option σ

namespace Machine

/-! ## 1. Runs -/

variable {σ ℓ : Type*} (m : Machine σ ℓ)

/-- One step whose label meets `ok` in the state it leaves. -/
def Step (ok : σ → ℓ → Prop) (s t : σ) : Prop :=
  ∃ a, ok s a ∧ m.next s a = some t

/-- `t` can be reached from `s` by steps that meet `ok`. -/
def Leads (ok : σ → ℓ → Prop) : σ → σ → Prop :=
  Relation.ReflTransGen (m.Step ok)

/-- The states of the runs from an initial state whose steps all meet `ok`. -/
def ReachWhile (ok : σ → ℓ → Prop) (t : σ) : Prop :=
  ∃ s, m.init s ∧ m.Leads ok s t

/-- The reachable states. -/
def Reach (t : σ) : Prop :=
  m.ReachWhile (fun _ _ => True) t

/-- Runs a list of labels. -/
def run : σ → List ℓ → Option σ
  | s, [] => some s
  | s, a :: as => (m.next s a).bind fun t => run t as

/-- Runs a list of labels as long as each meets `ok` where it is taken. -/
def runWhile (ok : σ → ℓ → Prop) [∀ s a, Decidable (ok s a)] : σ → List ℓ → Option σ
  | s, [] => some s
  | s, a :: as => if ok s a then (m.next s a).bind fun t => runWhile ok t as else none

variable {m} {ok ok' : σ → ℓ → Prop} {s t u : σ}

/-- **The invariant rule.**  What holds initially and is kept by every permitted step holds in
every state reached. -/
theorem ReachWhile.invariant {I : σ → Prop} (h : m.ReachWhile ok t)
    (hinit : ∀ s, m.init s → I s)
    (hstep : ∀ s a t, I s → ok s a → m.next s a = some t → I t) : I t := by
  obtain ⟨s, hs, hst⟩ := h
  induction hst with
  | refl => exact hinit s hs
  | tail _ hlast ih =>
    obtain ⟨a, hok, hnext⟩ := hlast
    exact hstep _ a _ ih hok hnext

theorem Reach.invariant {I : σ → Prop} (h : m.Reach t)
    (hinit : ∀ s, m.init s → I s)
    (hstep : ∀ s a t, I s → m.next s a = some t → I t) : I t :=
  ReachWhile.invariant h hinit fun s a t hI _ hn => hstep s a t hI hn

/-- An invariant may be kept only under a second property that is known to be one. -/
theorem ReachWhile.invariant_of {I J : σ → Prop} (h : m.ReachWhile ok t)
    (hJ : ∀ s, m.ReachWhile ok s → J s) (hinit : ∀ s, m.init s → I s)
    (hstep : ∀ s a t, I s → J s → J t → ok s a → m.next s a = some t → I t) : I t := by
  obtain ⟨s, hs, hst⟩ := h
  induction hst with
  | refl => exact hinit s hs
  | tail hpre hlast ih =>
    have hb := hJ _ ⟨s, hs, hpre⟩
    have hc := hJ _ ⟨s, hs, hpre.tail hlast⟩
    obtain ⟨a, hok, hnext⟩ := hlast
    exact hstep _ a _ ih hb hc hok hnext

-- A weaker condition permits more runs.
theorem Leads.mono (himp : ∀ s a, ok s a → ok' s a) (h : m.Leads ok s t) : m.Leads ok' s t := by
  induction h with
  | refl => exact .refl
  | tail _ hlast ih =>
    obtain ⟨a, hok, hn⟩ := hlast
    exact ih.tail ⟨a, himp _ a hok, hn⟩

theorem ReachWhile.mono (himp : ∀ s a, ok s a → ok' s a) (h : m.ReachWhile ok t) :
    m.ReachWhile ok' t := by
  obtain ⟨s, hs, hst⟩ := h
  exact ⟨s, hs, hst.mono himp⟩

theorem ReachWhile.reach (h : m.ReachWhile ok t) : m.Reach t :=
  h.mono fun _ _ _ => trivial

theorem ReachWhile.next {a : ℓ} (h : m.ReachWhile ok s) (hok : ok s a)
    (hn : m.next s a = some t) : m.ReachWhile ok t := by
  obtain ⟨s0, hs0, hl⟩ := h
  exact ⟨s0, hs0, hl.tail ⟨a, hok, hn⟩⟩

/-- **Forward simulation.**  If every permitted step of `m` is matched by a permitted path of `m'`
between related states, every state that `m` reaches is related to one that `m'` reaches. -/
theorem ReachWhile.simulate {σ' ℓ' : Type*} {m' : Machine σ' ℓ'} {ok₂ : σ' → ℓ' → Prop}
    {R : σ → σ' → Prop} (h : m.ReachWhile ok t) (hinit : ∀ s, m.init s → ∃ s', m'.init s' ∧ R s s')
    (hstep : ∀ s s' a t, R s s' → ok s a → m.next s a = some t →
      ∃ t', m'.Leads ok₂ s' t' ∧ R t t') :
    ∃ t', m'.ReachWhile ok₂ t' ∧ R t t' := by
  obtain ⟨s, hs, hst⟩ := h
  induction hst with
  | refl =>
    obtain ⟨s', hs', hR⟩ := hinit s hs
    exact ⟨s', ⟨s', hs', .refl⟩, hR⟩
  | tail _ hlast ih =>
    obtain ⟨u', ⟨s', hs', hleads⟩, hR⟩ := ih
    obtain ⟨a, hok, hn⟩ := hlast
    obtain ⟨t', hmore, hR'⟩ := hstep _ u' a _ hR hok hn
    exact ⟨t', ⟨s', hs', hleads.trans hmore⟩, hR'⟩

/-- A run by labels is a path, each label meeting `ok` where it is taken. -/
theorem leads_of_run {as : List ℓ} (hok : ∀ s a, a ∈ as → ok s a) (h : m.run s as = some t) :
    m.Leads ok s t := by
  induction as generalizing s with
  | nil =>
    simp only [run, Option.some.injEq] at h
    subst h
    exact .refl
  | cons a as ih =>
    simp only [run, Option.bind_eq_some_iff] at h
    obtain ⟨u, hu, hrest⟩ := h
    have hstep : m.Step ok s u := ⟨a, hok s a List.mem_cons_self, hu⟩
    exact .head hstep (ih (fun s b hb => hok s b (List.mem_cons_of_mem a hb)) hrest)

-- The checked form of the same: the condition is evaluated along the run.
theorem leads_of_runWhile [∀ s a, Decidable (ok s a)] {as : List ℓ}
    (h : m.runWhile ok s as = some t) : m.Leads ok s t := by
  induction as generalizing s with
  | nil =>
    simp only [runWhile, Option.some.injEq] at h
    subst h
    exact .refl
  | cons a as ih =>
    simp only [runWhile, Option.ite_none_right_eq_some, Option.bind_eq_some_iff] at h
    obtain ⟨hok, u, hu, hrest⟩ := h
    have hstep : m.Step ok s u := ⟨a, hok, hu⟩
    exact .head hstep (ih hrest)

theorem reach_of_run {as : List ℓ} (hs : m.init s) (h : m.run s as = some t) : m.Reach t :=
  ⟨s, hs, leads_of_run (fun _ _ _ => trivial) h⟩

/-! ## 2. Ranks -/

variable {I : σ → Prop} (rank : σ → Nat)

/-- **The rank rule.**  A step labelled `a` lowers the rank by one, or raises it by at most one less
than `gain a`; this is asked only of the labels that the run takes. -/
theorem length_le_of_rank {gain : ℓ → Nat} {ok : ℓ → Prop}
    (hstep : ∀ s a t, I s → ok a → m.next s a = some t → I t ∧ rank t + 1 ≤ rank s + gain a)
    {s t : σ} {as : List ℓ} (hs : I s) (hok : ∀ a ∈ as, ok a) (h : m.run s as = some t) :
    I t ∧ rank t + as.length ≤ rank s + (as.map gain).sum := by
  induction as generalizing s with
  | nil =>
    obtain rfl := Option.some.inj h
    exact ⟨hs, Nat.le_refl _⟩
  | cons a as ih =>
    obtain ⟨u, hu, hrest⟩ := Option.bind_eq_some_iff.mp h
    obtain ⟨hIu, hlower⟩ := hstep s a u hs (hok a List.mem_cons_self) hu
    obtain ⟨hIt, hlength⟩ := ih hIu (fun b hb => hok b (List.mem_cons_of_mem a hb)) hrest
    refine ⟨hIt, ?_⟩
    rw [List.length_cons, List.map_cons, List.sum_cons]
    omega

-- The induction is on the rank.
theorem leads_of_rank {ok : σ → ℓ → Prop} (done : σ → Prop)
    (hprogress : ∀ s, I s → ¬ done s → ∃ a t, ok s a ∧ m.next s a = some t ∧ I t ∧ rank t < rank s)
    {s : σ} (hs : I s) : ∃ t, m.Leads ok s t ∧ I t ∧ done t := by
  induction hrank : rank s using Nat.strongRecOn generalizing s with
  | _ r ih =>
    by_cases hdone : done s
    · exact ⟨s, .refl, hs, hdone⟩
    · obtain ⟨a, u, hok, hnext, hu, hlower⟩ := hprogress s hs hdone
      obtain ⟨t, hleads, ht, hend⟩ := ih (rank u) (hrank ▸ hlower) hu rfl
      exact ⟨t, .head ⟨a, hok, hnext⟩ hleads, ht, hend⟩

end Machine

end Reasoning
