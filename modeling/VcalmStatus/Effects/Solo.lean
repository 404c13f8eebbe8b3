import VcalmStatus.Effects.Traces

/-!
What a program asks that runs alone.

The moments of its run are the operations it called, each with the state it was called in and the
answer it was given. Between two step functions that answer these alike there is no difference to
the run, whatever they do anywhere else (`Program.run_congr`).
-/

namespace VcalmStatus.Effects

variable {Op : Type} {Ret : Op → Type} {ε α β σ ι : Type}

namespace Program

variable (step step' : ι → σ → (o : Op) → Option (Ret o × σ)) (i : ι)

/-- The moments of a run alone, up to its end or to an operation that is blocked. -/
def moments : Program Op Ret ε α → σ → List (Moment Op Ret σ ι)
  | .ret _, _ => []
  | .fail _, _ => []
  | .call o k, s => (step i s o).elim [] fun rs => ⟨i, s, o, rs.1⟩ :: (k rs.1).moments rs.2

@[simp] theorem moments_ret (a : α) (s : σ) :
    (.ret a : Program Op Ret ε α).moments step i s = [] := rfl

@[simp] theorem moments_fail (e : ε) (s : σ) :
    (.fail e : Program Op Ret ε α).moments step i s = [] := rfl

variable {step step' i} {p : Program Op Ret ε α} {s s' : σ}

theorem moments_call {o : Op} {k : Ret o → Program Op Ret ε α} {r : Ret o}
    (h : step i s o = some (r, s')) :
    (Program.call o k).moments step i s = ⟨i, s, o, r⟩ :: (k r).moments step i s' := by
  rw [moments, h]
  rfl

/-- Each moment is a step. -/
theorem step_of_mem_moments {m : Moment Op Ret σ ι} (h : m ∈ p.moments step i s) :
    m.thread = i ∧ ∃ t, step i m.state m.seen.1 = some (m.seen.2, t) := by
  induction p generalizing s with
  | ret a => simp at h
  | fail e => simp at h
  | call o k ih =>
      cases hstep : step i s o with
      | none => simp [moments, hstep] at h
      | some rs =>
          rw [moments_call hstep] at h
          obtain rfl | h := List.mem_cons.mp h
          · exact ⟨rfl, rs.2, hstep⟩
          · exact ih rs.1 h

/-- A run that ends is the same under every step function that answers its moments alike, and has
the same moments. -/
theorem run_congr {x : Except ε α × σ} (h : p.run (step i) s = some x)
    (hsame : ∀ m ∈ p.moments step i s, step' i m.state m.seen.1 = step i m.state m.seen.1) :
    p.run (step' i) s = some x ∧ p.moments step' i s = p.moments step i s := by
  induction p generalizing s with
  | ret a => exact ⟨h, rfl⟩
  | fail e => exact ⟨h, rfl⟩
  | call o k ih =>
      obtain ⟨⟨r, t⟩, hstep, hrest⟩ := Option.bind_eq_some_iff.mp h
      rw [moments_call hstep] at hsame
      have hstep' : step' i s o = some (r, t) := by
        rw [← hstep]
        exact hsame _ List.mem_cons_self
      obtain ⟨hrun, hmoments⟩ := ih r hrest fun m hm => hsame m (List.mem_cons_of_mem _ hm)
      refine ⟨?_, ?_⟩
      · rw [run_call, hstep', Option.bind_some, hrun]
      · rw [moments_call hstep', moments_call hstep, hmoments]

end Program

end VcalmStatus.Effects
