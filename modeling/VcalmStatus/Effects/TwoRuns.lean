import VcalmStatus.Effects.Program

/-!
Two runs side by side.

`Alike` is said of two programs, started alone from two states that need not be equal: where both
come to an end it is the same end, and `Q` holds of it and of the two states that are left. Its
rules are one for each construct. Only the rule of a call looks at a state, and it lets the two
answers differ as long as what follows them is alike.
-/

namespace VcalmStatus.Effects.Program

variable {Op : Type} {Ret : Op → Type} {ε α β σ τ : Type}
  {step₁ : σ → (o : Op) → Option (Ret o × σ)} {step₂ : τ → (o : Op) → Option (Ret o × τ)}

variable (step₁ step₂) in
/-- Where both programs end, they end the same way, and as `Q` says. -/
def Alike (Q : Except ε α → σ → τ → Prop) (p₁ p₂ : Program Op Ret ε α) (s₁ : σ) (s₂ : τ) : Prop :=
  ∀ r₁ t₁ r₂ t₂, p₁.run step₁ s₁ = some (r₁, t₁) → p₂.run step₂ s₂ = some (r₂, t₂) →
    r₁ = r₂ ∧ Q r₁ t₁ t₂

namespace Alike

variable {Q : Except ε α → σ → τ → Prop} {R : Except ε β → σ → τ → Prop}
  {p₁ p₂ : Program Op Ret ε α} {s₁ : σ} {s₂ : τ}

theorem ret {a : α} (h : Q (.ok a) s₁ s₂) : Alike step₁ step₂ Q (.ret a) (.ret a) s₁ s₂ := by
  rintro _ _ _ _ ⟨⟩ ⟨⟩
  exact ⟨rfl, h⟩

theorem fail {e : ε} (h : Q (.error e) s₁ s₂) :
    Alike step₁ step₂ Q (.fail e : Program Op Ret ε α) (.fail e) s₁ s₂ := by
  rintro _ _ _ _ ⟨⟩ ⟨⟩
  exact ⟨rfl, h⟩

theorem imp {Q' : Except ε α → σ → τ → Prop} (h : Alike step₁ step₂ Q p₁ p₂ s₁ s₂)
    (hQ : ∀ r t₁ t₂, Q r t₁ t₂ → Q' r t₁ t₂) : Alike step₁ step₂ Q' p₁ p₂ s₁ s₂ := by
  intro r₁ t₁ r₂ t₂ h₁ h₂
  obtain ⟨hr, hq⟩ := h r₁ t₁ r₂ t₂ h₁ h₂
  exact ⟨hr, hQ _ _ _ hq⟩

/-- The rule of one operation, whatever the two states answer. -/
theorem call {o : Op} {k₁ k₂ : Ret o → Program Op Ret ε α}
    (h : ∀ a₁ t₁ a₂ t₂, step₁ s₁ o = some (a₁, t₁) → step₂ s₂ o = some (a₂, t₂) →
      Alike step₁ step₂ Q (k₁ a₁) (k₂ a₂) t₁ t₂) :
    Alike step₁ step₂ Q (.call o k₁) (.call o k₂) s₁ s₂ := by
  intro r₁ t₁ r₂ t₂ h₁ h₂
  rw [run_call] at h₁ h₂
  obtain ⟨⟨a₁, u₁⟩, hstep₁, hrest₁⟩ := Option.bind_eq_some_iff.mp h₁
  obtain ⟨⟨a₂, u₂⟩, hstep₂, hrest₂⟩ := Option.bind_eq_some_iff.mp h₂
  exact h a₁ u₁ a₂ u₂ hstep₁ hstep₂ r₁ t₁ r₂ t₂ hrest₁ hrest₂

/-- The rule of sequencing. -/
theorem bind {f₁ f₂ : α → Program Op Ret ε β} (h : Alike step₁ step₂ Q p₁ p₂ s₁ s₂)
    (hok : ∀ a t₁ t₂, Q (.ok a) t₁ t₂ → Alike step₁ step₂ R (f₁ a) (f₂ a) t₁ t₂)
    (herr : ∀ e t₁ t₂, Q (.error e) t₁ t₂ → R (.error e) t₁ t₂) :
    Alike step₁ step₂ R (p₁ >>= f₁) (p₂ >>= f₂) s₁ s₂ := by
  intro r₁ t₁ r₂ t₂ h₁ h₂
  rw [run_bind] at h₁ h₂
  obtain ⟨⟨x₁, u₁⟩, hp₁, hrest₁⟩ := Option.bind_eq_some_iff.mp h₁
  obtain ⟨⟨x₂, u₂⟩, hp₂, hrest₂⟩ := Option.bind_eq_some_iff.mp h₂
  obtain ⟨rfl, hq⟩ := h x₁ u₁ x₂ u₂ hp₁ hp₂
  cases x₁ with
  | ok a => exact hok a u₁ u₂ hq r₁ t₁ r₂ t₂ hrest₁ hrest₂
  | error e =>
      cases hrest₁
      cases hrest₂
      exact ⟨rfl, herr e u₁ u₂ hq⟩

theorem tryCatch {Q' : Except ε α → σ → τ → Prop} {h₁ h₂ : ε → Program Op Ret ε α}
    (h : Alike step₁ step₂ Q p₁ p₂ s₁ s₂) (hok : ∀ a t₁ t₂, Q (.ok a) t₁ t₂ → Q' (.ok a) t₁ t₂)
    (herr : ∀ e t₁ t₂, Q (.error e) t₁ t₂ → Alike step₁ step₂ Q' (h₁ e) (h₂ e) t₁ t₂) :
    Alike step₁ step₂ Q' (tryCatch p₁ h₁) (tryCatch p₂ h₂) s₁ s₂ := by
  intro r₁ t₁ r₂ t₂ hrun₁ hrun₂
  rw [run_tryCatch] at hrun₁ hrun₂
  obtain ⟨⟨x₁, u₁⟩, hp₁, hrest₁⟩ := Option.bind_eq_some_iff.mp hrun₁
  obtain ⟨⟨x₂, u₂⟩, hp₂, hrest₂⟩ := Option.bind_eq_some_iff.mp hrun₂
  obtain ⟨rfl, hq⟩ := h x₁ u₁ x₂ u₂ hp₁ hp₂
  cases x₁ with
  | ok a =>
      cases hrest₁
      cases hrest₂
      exact ⟨rfl, hok a u₁ u₂ hq⟩
  | error e => exact herr e u₁ u₂ hq r₁ t₁ r₂ t₂ hrest₁ hrest₂

theorem ofExcept {x : Except ε α} (h : Q x s₁ s₂) :
    Alike step₁ step₂ Q (ofExcept x) (ofExcept x) s₁ s₂ := by
  cases x with
  | ok a => exact ret h
  | error e => exact fail h

end Alike

end VcalmStatus.Effects.Program
