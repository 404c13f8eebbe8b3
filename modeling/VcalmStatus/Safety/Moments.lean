import VcalmStatus.Effects.Traces
import VcalmStatus.Safety.History
import VcalmStatus.Safety.Rules

/-!
What a moment of a run says about the tables: the answer of a read is the tables' answer then, and
what was in them then is in them still.
-/

namespace VcalmStatus

open Effects Policy

/-- An operation and what it answered. -/
abbrev Seen := Observation Operation Operation.Answer

/-- One operation of a run of the service. -/
abbrev ServiceMoment := Moment Operation Operation.Answer World Nat

variable {P : Policy} {env : Environment} {α : Type}
  {p q : Pool Operation Operation.Answer JsError α World Nat} {τ : List ServiceMoment}
  {Q : Nat → Except JsError α → World → Prop}

/-- What a read was answered is what the tables held. -/
theorem Effects.Pool.Traced.answers (h : Pool.Traced (World.step env) p τ q) {m : ServiceMoment}
    {o : Operation} {r : o.Answer} (hm : m ∈ τ) (hseen : m.seen = ⟨o, r⟩) (ho : o.quiet = true) :
    o.Answers env m.state r := by
  obtain ⟨_, _, _, _, _, _, s', hstep⟩ := h.moment hm
  rw [hseen] at hstep
  obtain ⟨⟨tick, rfl⟩, hans⟩ := World.quiet_step ho hstep
  cases o <;> exact hans

/-- A moment of a good run was good, and the run went on from it. -/
theorem Effects.Pool.Traced.extends (hp : Pool.Good (P.discipline env) Q p)
    (h : Pool.Traced (World.step env) p τ q) {m : ServiceMoment} (hm : m ∈ τ) :
    P.Inv env m.state ∧ P.Extends m.state q.state := by
  obtain ⟨τ₁, q₁, _, h₁, hstate, hrun, _⟩ := h.moment hm
  have hgood := run_good hp h₁.run
  rw [← hstate]
  exact ⟨hgood.inv, run_extends hgood hrun⟩

/-- To a thread that has not started, everything so far was interference. -/
theorem Effects.Pool.Traced.interference (hp : Pool.Good (P.discipline env) Q p)
    (h : Pool.Traced (World.step env) p τ q) {i : Nat} (hown : own i τ = []) :
    P.Interference i p.state q.state := by
  induction h with
  | nil => exact Interference.refl i _
  | @snoc τ q j o k r s' h hthread hstep ih =>
      rw [own_append, List.append_eq_nil_iff] at hown
      have hne : i ≠ j := by
        rintro rfl
        rw [own_self] at hown
        cases hown.2
      have hgood := run_good hp h.run
      have hj := hgood.safe j
      rw [hthread] at hj
      have hguard := (hj q.state (Interference.refl j _) hgood.inv).1
      exact (ih hown.1).trans (concurrent hgood.inv hguard hstep hne)

end VcalmStatus
