import VcalmStatus.Effects.Program

/-!
Two ways of answering the same operations.

A client is a `Program` over the operations of an interface, so it may choose every call by the
answers it got before. An implementation follows another one when a relation between their states
survives every call and the answers are the same. No client can then tell them apart, which
`Follows.run` says once for all clients. Where the answers are the same only under a condition,
the condition is on the calls: `Allowed` is that it holds of every call a client comes to.
-/

namespace VcalmStatus.Effects

variable {Op : Type} {Ret : Op → Type} {ε α : Type} {σ τ : Type}

/-- A way of answering the operations; `none` where an operation has to wait. -/
abbrev Answers (Ret : Op → Type) (σ : Type) := σ → (o : Op) → Option (Ret o × σ)

namespace Answers

/-- With a clock that stands still within a call and moves between two of them. -/
def timed {T : Type} (clock : Nat → T) (step : T → Answers Ret σ) : Answers Ret (Nat × σ) :=
  fun s o => (step (clock s.1) s.2 o).map fun r => (r.1, s.1 + 1, r.2)

theorem timed_eq_some {T : Type} {clock : Nat → T} {step : T → Answers Ret σ} {n : Nat} {s s' : σ}
    {o : Op} {r : Ret o} (h : step (clock n) s o = some (r, s')) :
    timed clock step (n, s) o = some (r, n + 1, s') := by
  rw [timed, h]
  rfl

end Answers

namespace Program

/-- Every call the client comes to from `s` on is one that `G` allows at its moment. -/
def Allowed (G : σ → Op → Prop) (step : Answers Ret σ) : Program Op Ret ε α → σ → Prop
  | .ret _, _ => True
  | .fail _, _ => True
  | .call o k, s => G s o ∧ ∀ r s', step s o = some (r, s') → (k r).Allowed G step s'

/-- What is allowed under a condition is allowed under a weaker one. -/
theorem Allowed.mono {G G' : σ → Op → Prop} {step : Answers Ret σ} (hG : ∀ s o, G s o → G' s o)
    {p : Program Op Ret ε α} {s : σ} (h : p.Allowed G step s) : p.Allowed G' step s := by
  induction p generalizing s with
  | ret a => trivial
  | fail e => trivial
  | call o k ih => exact ⟨hG s o h.1, fun r s' hstep => ih r (h.2 r s' hstep)⟩

end Program

/-- From related states on, an allowed call is answered alike and leaves related states. -/
def Follows (R : σ → τ → Prop) (G : σ → Op → Prop) (step : Answers Ret σ)
    (step' : Answers Ret τ) : Prop :=
  ∀ ⦃s t o r s'⦄, R s t → G s o → step s o = some (r, s') → ∃ t', step' t o = some (r, t') ∧ R s' t'

namespace Follows

variable {R : σ → τ → Prop} {G : σ → Op → Prop} {step : Answers Ret σ} {step' : Answers Ret τ}

/-- A client whose calls are all allowed comes to the same end over both implementations. -/
theorem run (h : Follows R G step step') {p : Program Op Ret ε α} {r : Except ε α} {s s' : σ}
    {t : τ} (hallowed : p.Allowed G step s) (hR : R s t) (hrun : p.run step s = some (r, s')) :
    ∃ t', p.run step' t = some (r, t') ∧ R s' t' := by
  induction p generalizing s t with
  | ret a =>
      cases hrun
      exact ⟨t, rfl, hR⟩
  | fail e =>
      cases hrun
      exact ⟨t, rfl, hR⟩
  | call o k ih =>
      obtain ⟨⟨a, u⟩, ho, hrest⟩ := Option.bind_eq_some_iff.mp hrun
      obtain ⟨t', ho', hR'⟩ := h hR hallowed.1 ho
      obtain ⟨t'', hrun', hR''⟩ := ih a (hallowed.2 a u ho) hR' hrest
      exact ⟨t'', by rw [Program.run_call, ho']; exact hrun', hR''⟩

/-- What follows another implementation at every moment follows it on every clock. -/
theorem timed {T : Type} {step : T → Answers Ret σ} {step' : T → Answers Ret τ}
    (h : ∀ now, Follows R G (step now) (step' now)) (clock : Nat → T) :
    Follows (fun s t => s.1 = t.1 ∧ R s.2 t.2) (fun s o => G s.2 o)
      (Answers.timed clock step) (Answers.timed clock step') := by
  rintro ⟨n, s⟩ ⟨m, t⟩ o r s' ⟨hn, hR⟩ hG hstep
  cases hn
  obtain ⟨⟨a, u⟩, ho, hs'⟩ := Option.map_eq_some_iff.mp hstep
  cases hs'
  obtain ⟨t', ho', hR'⟩ := h (clock n) hR hG ho
  exact ⟨(n + 1, t'), Answers.timed_eq_some ho', rfl, hR'⟩

end Follows

end VcalmStatus.Effects
