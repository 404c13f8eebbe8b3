import VcalmStatus.Effects.Program

/-!
A loop with no bound of its own. One turn of its body goes on to another state, returns, or throws;
the loop comes to an outcome when finitely many turns do.
-/

namespace VcalmStatus.Effects

variable {ε σ α : Type} {body : σ → Except ε (σ ⊕ α)}

/-- What the loop comes to from a state. -/
inductive Loop (body : σ → Except ε (σ ⊕ α)) : σ → Except ε α → Prop
  | returns {s : σ} {a : α} (h : body s = .ok (.inr a)) : Loop body s (.ok a)
  | throws {s : σ} {e : ε} (h : body s = .error e) : Loop body s (.error e)
  | again {s t : σ} {r : Except ε α} (h : body s = .ok (.inl t)) (rest : Loop body t r) :
      Loop body s r

namespace Loop

/-- What every turn keeps holds of the state that the last turn begins in. -/
theorem invariant {I : σ → Prop} {Q : Except ε α → Prop}
    (hagain : ∀ {s t}, I s → body s = .ok (.inl t) → I t)
    (hreturns : ∀ {s a}, I s → body s = .ok (.inr a) → Q (.ok a))
    (hthrows : ∀ {s e}, I s → body s = .error e → Q (.error e))
    {s : σ} {r : Except ε α} (h : Loop body s r) (hs : I s) : Q r := by
  induction h with
  | returns hbody => exact hreturns hs hbody
  | throws hbody => exact hthrows hs hbody
  | again hbody _ ih => exact ih (hagain hs hbody)

/-- A loop whose turns lower a rank, wherever an invariant of it holds, comes to an outcome. -/
theorem exists_of_rank {I : σ → Prop} (rank : σ → Nat)
    (hagain : ∀ {s t}, I s → body s = .ok (.inl t) → I t ∧ rank t < rank s) {s : σ} (hs : I s) :
    ∃ r, Loop body s r := by
  induction hrank : rank s using Nat.strongRecOn generalizing s with
  | _ n ih =>
      cases hbody : body s with
      | error e => exact ⟨_, .throws hbody⟩
      | ok next =>
          cases next with
          | inr a => exact ⟨_, .returns hbody⟩
          | inl t =>
              obtain ⟨ht, hlt⟩ := hagain hs hbody
              obtain ⟨r, hr⟩ := ih (rank t) (hrank ▸ hlt) ht rfl
              exact ⟨r, .again hbody hr⟩

end Loop

end VcalmStatus.Effects
