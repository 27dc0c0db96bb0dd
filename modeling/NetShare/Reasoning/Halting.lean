import Mathlib.Tactic.Common

/-!
# Computations that change a state and may halt

`HaltingM ε σ β` either returns a `β` or halts with an `ε`; what it did to the state before it
halted stays.  `exec` runs one, and the lemmas push it through the operations of the monad.  One
that neither reads nor writes a part of the state comes to the same whether that part is changed
before it runs or afterwards.
-/

namespace Reasoning

abbrev HaltingM (ε σ β : Type) := ExceptT ε (StateM σ) β

namespace HaltingM

variable {ε σ β γ : Type}

/-- How a computation ends in this state, and the state it leaves. -/
def exec (m : HaltingM ε σ β) (s : σ) : Except ε β × σ := m.run.run s

@[simp] theorem exec_pure (b : β) (s : σ) :
    exec (pure b : HaltingM ε σ β) s = (.ok b, s) := rfl

@[simp] theorem exec_throw (e : ε) (s : σ) :
    exec (throw e : HaltingM ε σ β) s = (.error e, s) := rfl

@[simp] theorem exec_get (s : σ) : exec (get : HaltingM ε σ σ) s = (.ok s, s) := rfl

@[simp] theorem exec_set (s t : σ) : exec (set t : HaltingM ε σ PUnit) s = (.ok ⟨⟩, t) := rfl

-- The state of a part that halts is kept: the effects are not undone.
theorem exec_bind (m : HaltingM ε σ β) (k : β → HaltingM ε σ γ) (s : σ) :
    exec (m >>= k) s =
      match exec m s with
      | (.ok b, t) => exec (k b) t
      | (.error e, t) => (.error e, t) := by
  show exec (ExceptT.bind m k) s = _
  unfold exec ExceptT.bind ExceptT.mk ExceptT.bindCont
  simp only [ExceptT.run, StateT.run_bind]
  rcases StateT.run m s with ⟨_ | b, t⟩ <;> rfl

/-- A first part that returns is followed by the rest in the state it leaves. -/
theorem exec_bind_of_ok {m : HaltingM ε σ β} {s t : σ} {b : β} (h : exec m s = (.ok b, t))
    (k : β → HaltingM ε σ γ) : exec (m >>= k) s = exec (k b) t := by
  rw [exec_bind, h]

/-- A first part that halts is all there is. -/
theorem exec_bind_of_error {m : HaltingM ε σ β} {s t : σ} {e : ε} (h : exec m s = (.error e, t))
    (k : β → HaltingM ε σ γ) : exec (m >>= k) s = (.error e, t) := by
  rw [exec_bind, h]

/-! ## Computations that leave part of the state alone -/

/-- Changing the state by `u` before `m` is changing it afterwards. -/
def Commutes (u : σ → σ) (m : HaltingM ε σ β) : Prop :=
  ∀ s, m.exec (u s) = ((m.exec s).1, u (m.exec s).2)

namespace Commutes

variable {u : σ → σ}

theorem pure (b : β) : Commutes u (Pure.pure b : HaltingM ε σ β) := fun _ => rfl

theorem throw (e : ε) : Commutes u (MonadExcept.throw e : HaltingM ε σ β) := fun _ => rfl

/-- The rest only has to leave the part alone for what the first part can return. -/
theorem bind {m : HaltingM ε σ β} {k : β → HaltingM ε σ γ} (hm : Commutes u m)
    (hk : ∀ s b t, m.exec s = (.ok b, t) → Commutes u (k b)) : Commutes u (m >>= k) := by
  intro s
  rw [exec_bind, exec_bind, hm s]
  cases h : m.exec s with
  | mk result t =>
    cases result with
    | ok b => exact hk s b t h t
    | error e => rfl

theorem modify {f : σ → σ} (hf : ∀ s, f (u s) = u (f s)) :
    Commutes u (MonadStateOf.modifyGet fun s => (PUnit.unit, f s) : HaltingM ε σ PUnit) :=
  fun s => Prod.ext rfl (hf s)

end Commutes

end HaltingM

end Reasoning
