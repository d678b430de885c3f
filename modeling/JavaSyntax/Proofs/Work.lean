import JavaSyntax.Syntax.Parser

/-!
# Work on a state that may fail

Reading and parsing are work on a state that either comes to a result or fails, and
keeps the state in both cases. Here are the equations of such work, applied to a state;
proofs about one operation rewrite with them and never open the monad.
-/

namespace JavaSyntax.Work

variable {ε σ α β : Type}

/-- Work goes on with the result and the state of what came before, unless that failed. -/
theorem bind_apply (x : ExceptT ε (StateM σ) α) (f : α → ExceptT ε (StateM σ) β) (s : σ) :
    (x >>= f) s = match x s with
      | (.ok a, s) => f a s
      | (.error e, s) => (.error e, s) := by
  simp only [bind, ExceptT.bind, ExceptT.mk, StateT.bind]
  rcases x s with ⟨_ | _, _⟩ <;> rfl

/-- Work that comes to a result has come to one at every step. -/
theorem bind_eq_ok {x : ExceptT ε (StateM σ) α} {f : α → ExceptT ε (StateM σ) β} {s s' : σ}
    {b : β} (h : (x >>= f) s = (.ok b, s')) : ∃ a t, x s = (.ok a, t) ∧ f a t = (.ok b, s') := by
  rw [bind_apply] at h
  rcases hx : x s with ⟨_ | a, t⟩
  · rw [hx] at h
    cases h
  · rw [hx] at h
    exact ⟨a, t, rfl, h⟩

/-- A given value is the result, in the state that is there. -/
theorem pure_apply (a : α) (s : σ) : (pure a : ExceptT ε (StateM σ) α) s = (.ok a, s) := rfl

/-- The state itself is the result. -/
theorem get_apply (s : σ) : (get : ExceptT ε (StateM σ) σ) s = (.ok s, s) := rfl

/-- The state is replaced. -/
theorem set_apply (s t : σ) : (set t : ExceptT ε (StateM σ) PUnit) s = (.ok ⟨⟩, t) := rfl

/-- The state is changed by a function. -/
theorem modify_apply (f : σ → σ) (s : σ) :
    (modify f : ExceptT ε (StateM σ) PUnit) s = (.ok ⟨⟩, f s) := rfl

/-- A result or a failure is taken over, and the state stays. -/
theorem lift_apply (r : Except ε α) (s : σ) :
    (liftM r : ExceptT ε (StateM σ) α) s = (r, s) := by
  cases r <;> rfl

/-- A result is changed afterwards, and a failure stays. -/
theorem map_apply (f : α → β) (x : ExceptT ε (StateM σ) α) (s : σ) :
    (f <$> x) s = ((x s).1.map f, (x s).2) := by
  rw [map_eq_pure_bind, bind_apply]
  rcases x s with ⟨_ | _, _⟩ <;> rfl

end JavaSyntax.Work
