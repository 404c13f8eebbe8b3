import VcalmStatus.Effects.Interleaving
import VcalmStatus.Effects.Simulation

/-!
A shared state on two levels.

`Matches` says that the two levels answer every allowed operation alike and keep to one another, or
both make it wait. A pool over the one level then has the runs that it has over the other, in both
directions (`Matches.run`, `Matches.run_back`). Which operations the threads come to is found out
level by level and program by program: `Obeys` is about one program and the answers it is given,
and `Obeys.run` about all of them together.
-/

namespace VcalmStatus.Effects

variable {Op : Type} {Ret : Op → Type} {ε α β σ τ ι : Type}

/-! ### What a program asks for -/

/-- As long as the answers are as `A` says, every operation is as `G` says and the value, if there
is one, as `P`. -/
def Obeys (A : (o : Op) → Ret o → Prop) (G : Op → Prop) :
    Program Op Ret ε α → (α → Prop) → Prop
  | .ret a, P => P a
  | .fail _, _ => True
  | .call o k, P => G o ∧ ∀ r, A o r → Obeys A G (k r) P

namespace Obeys

variable {A : (o : Op) → Ret o → Prop} {G : Op → Prop} {P : α → Prop} {R : β → Prop}

theorem bind {p : Program Op Ret ε α} {f : α → Program Op Ret ε β} (h : Obeys A G p P)
    (hf : ∀ a, P a → Obeys A G (f a) R) : Obeys A G (p >>= f) R := by
  induction p with
  | ret a => exact hf a h
  | fail e => trivial
  | call o k ih => exact ⟨h.1, fun r hr => ih r (h.2 r hr)⟩

theorem tryCatch {p : Program Op Ret ε α} {handler : ε → Program Op Ret ε α}
    (h : Obeys A G p P) (hhandler : ∀ e, Obeys A G (handler e) P) :
    Obeys A G (tryCatch p handler) P := by
  induction p with
  | ret a => exact h
  | fail e => exact hhandler e
  | call o k ih => exact ⟨h.1, fun r hr => ih r (h.2 r hr)⟩

theorem ofExcept {x : Except ε α} (h : ∀ a, x = .ok a → P a) :
    Obeys A G (Program.ofExcept x) P := by
  cases x with
  | ok a => exact h a rfl
  | error e => trivial

/-- Threads that obey ask for nothing else in any run, if whoever answers them keeps to `A` in the
states `I` that their operations lead to. -/
theorem run {step : ι → Answers Ret σ} [DecidableEq ι] {p q : Pool Op Ret ε α σ ι} {I : σ → Prop}
    (hstep : ∀ {i s o r s'}, I s → G o → step i s o = some (r, s') → A o r ∧ I s')
    (hstate : I p.state) (hp : ∀ i, Obeys A G (p.thread i) fun _ => True)
    (h : Pool.Run step p q) : I q.state ∧ ∀ i, Obeys A G (q.thread i) fun _ => True := by
  induction h with
  | refl => exact ⟨hstate, hp⟩
  | @tail b c _ hnext ih =>
      cases hnext with
      | @call i o k r s' hthread hs =>
          have hi := ih.2 i
          rw [hthread] at hi
          obtain ⟨hanswer, hstate'⟩ := hstep ih.1 hi.1 hs
          refine ⟨hstate', fun j => ?_⟩
          by_cases hj : j = i
          · subst hj
            simpa using hi.2 r hanswer
          · simpa [Function.update_of_ne hj] using ih.2 j

end Obeys

/-! ### Two levels -/

/-- From related states on, an allowed operation is answered alike and leaves related states, or it
has to wait on both levels. -/
def Matches (R : σ → τ → Prop) (G : Op → Prop) (step : ι → Answers Ret σ)
    (step' : ι → Answers Ret τ) : Prop :=
  ∀ ⦃i s t o⦄, R s t → G o → (step i s o = none ∧ step' i t o = none) ∨
    ∃ r s' t', step i s o = some (r, s') ∧ step' i t o = some (r, t') ∧ R s' t'

namespace Matches

variable {R : σ → τ → Prop} {G : Op → Prop} {step : ι → Answers Ret σ}
  {step' : ι → Answers Ret τ} [DecidableEq ι] {p : Pool Op Ret ε α σ ι} {p' : Pool Op Ret ε α τ ι}

/-- Pools with the same threads and related states. -/
structure Pools (R : σ → τ → Prop) (p : Pool Op Ret ε α σ ι) (p' : Pool Op Ret ε α τ ι) : Prop where
  thread : p.thread = p'.thread
  state : R p.state p'.state

/-- Every run over the first level is one over the second. -/
theorem run (h : Matches R G step step') (hp : Pools R p p')
    (hallowed : ∀ {q'}, Pool.Run step' p' q' → ∀ {i o k}, q'.thread i = .call o k → G o)
    {q : Pool Op Ret ε α σ ι} (hrun : Pool.Run step p q) :
    ∃ q', Pool.Run step' p' q' ∧ Pools R q q' := by
  induction hrun with
  | refl => exact ⟨p', .refl, hp⟩
  | @tail b c _ hnext ih =>
      obtain ⟨b', hb', hpools⟩ := ih
      cases hnext with
      | @call i o k r s' hthread hs =>
          have hthread' : b'.thread i = .call o k := by rw [← hpools.thread, hthread]
          obtain ⟨hnone, -⟩ | ⟨a, s'', t', hs'', ht', hR⟩ := h hpools.state (hallowed hb' hthread')
          · rw [hnone] at hs
            cases hs
          · rw [hs''] at hs
            cases hs
            exact ⟨_, hb'.tail (.call hthread' ht'), by rw [hpools.thread], hR⟩

/-- Every run over the second level is one over the first. -/
theorem run_back (h : Matches R G step step') (hp : Pools R p p')
    (hallowed : ∀ {q'}, Pool.Run step' p' q' → ∀ {i o k}, q'.thread i = .call o k → G o)
    {q' : Pool Op Ret ε α τ ι} (hrun : Pool.Run step' p' q') :
    ∃ q, Pool.Run step p q ∧ Pools R q q' := by
  induction hrun with
  | refl => exact ⟨p, .refl, hp⟩
  | @tail b' c' hrun' hnext ih =>
      obtain ⟨b, hb, hpools⟩ := ih
      cases hnext with
      | @call i o k r t' hthread ht =>
          have hthread' : b.thread i = .call o k := by rw [hpools.thread, hthread]
          obtain ⟨-, hnone⟩ | ⟨a, s', t'', hs', ht'', hR⟩ := h hpools.state (hallowed hrun' hthread)
          · rw [hnone] at ht
            cases ht
          · rw [ht''] at ht
            cases ht
            exact ⟨_, hb.tail (.call hthread' hs'), by rw [hpools.thread], hR⟩

end Matches

end VcalmStatus.Effects
