import VcalmStatus.Effects.Program
import Mathlib.Logic.Relation

/-!
Programs running among others, one operation at a time.

A `Pool` is a shared state and one program for each thread; a step lets any one thread call its
next operation. Nothing is said about who steps when, so a property of every run of a pool is a
property of every interleaving.

The reasoning is rely/guarantee. A `Discipline` names the invariant of the shared state, what a
thread may rely on while others step, and what it must establish before each of its operations.
`Safe` is then a property of one program at one state, proved thread by thread with no pool in
sight; `Pool.Run.good` puts the threads together. `Safe.run_sound` is the same for a program that
runs alone.
-/

namespace VcalmStatus.Effects

variable {Op : Type} {Ret : Op → Type} {ε α β σ ι : Type}

/-- What holds of the shared state between operations, what each thread may rely on others to
leave alone, and what it owes before each operation it calls. -/
structure Discipline (step : ι → σ → (o : Op) → Option (Ret o × σ)) where
  Inv : σ → Prop
  Rely : ι → σ → σ → Prop
  Guard : ι → σ → Op → Prop
  rely_refl : ∀ i s, Rely i s s
  rely_trans : ∀ {i s₁ s₂ s₃}, Rely i s₁ s₂ → Rely i s₂ s₃ → Rely i s₁ s₃
  inv_step : ∀ {i s o r s'}, Inv s → Guard i s o → step i s o = some (r, s') → Inv s'

namespace Discipline

variable {step : ι → σ → (o : Op) → Option (Ret o × σ)} (D : Discipline step)

/-- The guarded steps of every other thread are ones thread `i` relies on. -/
def Concurrent : Prop :=
  ∀ {i j s o r s'}, D.Inv s → D.Guard j s o → step j s o = some (r, s') → i ≠ j → D.Rely i s s'

end Discipline

variable {step : ι → σ → (o : Op) → Option (Ret o × σ)}

/-- From `s` on, with others interfering as relied on, every operation of the program is called
under its guard, and its outcome satisfies `Q` when it is there. -/
def Safe (D : Discipline step) (i : ι) :
    Program Op Ret ε α → (Except ε α → σ → Prop) → σ → Prop
  | .ret a, Q, s => ∀ s', D.Rely i s s' → D.Inv s' → Q (.ok a) s'
  | .fail e, Q, s => ∀ s', D.Rely i s s' → D.Inv s' → Q (.error e) s'
  | .call o k, Q, s => ∀ s', D.Rely i s s' → D.Inv s' →
      D.Guard i s' o ∧ ∀ r s'', step i s' o = some (r, s'') → Safe D i (k r) Q s''

namespace Safe

variable {D : Discipline step} {i : ι} {Q Q' : Except ε α → σ → Prop} {s s' : σ}

/-- What is safe stays safe while others step. -/
theorem rely {p : Program Op Ret ε α} (h : Safe D i p Q s) (hR : D.Rely i s s') :
    Safe D i p Q s' := by
  cases p with
  | ret a => exact fun t ht => h t (D.rely_trans hR ht)
  | fail e => exact fun t ht => h t (D.rely_trans hR ht)
  | call o k => exact fun t ht => h t (D.rely_trans hR ht)

/-- The interference before the first operation may be taken out in front. -/
theorem of_rely {p : Program Op Ret ε α}
    (h : ∀ t, D.Rely i s t → D.Inv t → Safe D i p Q t) : Safe D i p Q s := by
  cases p with
  | ret a => exact fun t ht hI => h t ht hI t (D.rely_refl i t) hI
  | fail e => exact fun t ht hI => h t ht hI t (D.rely_refl i t) hI
  | call o k => exact fun t ht hI => h t ht hI t (D.rely_refl i t) hI

theorem imp {p : Program Op Ret ε α} (h : Safe D i p Q s)
    (hQ : ∀ r t, D.Inv t → Q r t → Q' r t) : Safe D i p Q' s := by
  induction p generalizing s with
  | ret a => exact fun t ht hI => hQ _ t hI (h t ht hI)
  | fail e => exact fun t ht hI => hQ _ t hI (h t ht hI)
  | call o k ih =>
      intro t ht hI
      obtain ⟨hG, hk⟩ := h t ht hI
      exact ⟨hG, fun r t' hr => ih r (hk r t' hr)⟩

/-- The rule of sequencing: the outcome of the first part is where the second one starts. -/
theorem bind {p : Program Op Ret ε α} {f : α → Program Op Ret ε β}
    {Q : Except ε β → σ → Prop}
    (h : Safe D i p (fun r t => match r with
      | .ok a => Safe D i (f a) Q t
      | .error e => Q (.error e) t) s) :
    Safe D i (p >>= f) Q s := by
  induction p generalizing s with
  | ret a => exact of_rely h
  | fail e => exact h
  | call o k ih =>
      intro t ht hI
      obtain ⟨hG, hk⟩ := h t ht hI
      exact ⟨hG, fun r t' hr => ih r (hk r t' hr)⟩

theorem tryCatch {p : Program Op Ret ε α} {h : ε → Program Op Ret ε α}
    (hp : Safe D i p (fun r t => match r with
      | .ok a => Q (.ok a) t
      | .error e => Safe D i (h e) Q t) s) :
    Safe D i (tryCatch p h) Q s := by
  induction p generalizing s with
  | ret a => exact hp
  | fail e => exact of_rely hp
  | call o k ih =>
      intro t ht hI
      obtain ⟨hG, hk⟩ := hp t ht hI
      exact ⟨hG, fun r t' hr => ih r (hk r t' hr)⟩

/-- Renaming the result of a program renames its postcondition. -/
theorem map {p : Program Op Ret ε α} {g : α → β} {Q' : Except ε β → σ → Prop}
    (h : Safe D i p Q s) (hQ : ∀ r t, Q r t → Q' (r.map g) t) :
    Safe D i (p >>= fun a => pure (g a)) Q' s := by
  induction p generalizing s with
  | ret a => exact fun t ht hI => hQ _ t (h t ht hI)
  | fail e => exact fun t ht hI => hQ _ t (h t ht hI)
  | call o k ih =>
      intro t ht hI
      obtain ⟨hG, hk⟩ := h t ht hI
      exact ⟨hG, fun r t' hr => ih r (hk r t' hr)⟩

/-- A program that turns its failures into results. -/
theorem recover {p : Program Op Ret ε α} {g : ε → α} {Q' : Except ε α → σ → Prop}
    (h : Safe D i p Q s) (hok : ∀ a t, Q (.ok a) t → Q' (.ok a) t)
    (herr : ∀ e t, Q (.error e) t → Q' (.ok (g e)) t) :
    Safe D i (MonadExceptOf.tryCatch p fun e => pure (g e)) Q' s := by
  induction p generalizing s with
  | ret a => exact fun t ht hI => hok a t (h t ht hI)
  | fail e => exact fun t ht hI => herr e t (h t ht hI)
  | call o k ih =>
      intro t ht hI
      obtain ⟨hG, hk⟩ := h t ht hI
      exact ⟨hG, fun r t' hr => ih r (hk r t' hr)⟩

theorem ofExcept {x : Except ε α} (h : ∀ t, D.Rely i s t → D.Inv t → Q x t) :
    Safe D i (Program.ofExcept x) Q s := by
  cases x with
  | ok a => exact h
  | error e => exact h

/-- A safe program that runs alone keeps the invariant and ends in its postcondition. -/
theorem run_sound {p : Program Op Ret ε α} {r : Except ε α} (h : Safe D i p Q s)
    (hI : D.Inv s) (hrun : p.run (step i) s = some (r, s')) : D.Inv s' ∧ Q r s' := by
  induction p generalizing s with
  | ret a =>
      cases hrun
      exact ⟨hI, h _ (D.rely_refl i _) hI⟩
  | fail e =>
      cases hrun
      exact ⟨hI, h _ (D.rely_refl i _) hI⟩
  | call o k ih =>
      obtain ⟨⟨a, t⟩, hstep, hrest⟩ := Option.bind_eq_some_iff.mp hrun
      obtain ⟨hG, hk⟩ := h s (D.rely_refl i s) hI
      exact ih a (hk a t hstep) (D.inv_step hI hG hstep) hrest

/-- What every guarded step keeps, a run alone keeps. -/
theorem run_induct {p : Program Op Ret ε α} {r : Except ε α} {J : σ → Prop}
    (hJ : ∀ {s o r s'}, D.Inv s → D.Guard i s o → step i s o = some (r, s') → J s → J s')
    (h : Safe D i p Q s) (hI : D.Inv s) (hrun : p.run (step i) s = some (r, s')) (h₀ : J s) :
    J s' := by
  induction p generalizing s with
  | ret a =>
      cases hrun
      exact h₀
  | fail e =>
      cases hrun
      exact h₀
  | call o k ih =>
      obtain ⟨⟨a, t⟩, hstep, hrest⟩ := Option.bind_eq_some_iff.mp hrun
      obtain ⟨hG, hk⟩ := h s (D.rely_refl i s) hI
      exact ih a (hk a t hstep) (D.inv_step hI hG hstep) hrest (hJ hI hG hstep h₀)

/-- A finished program has its postcondition. -/
theorem outcome {p : Program Op Ret ε α} {r : Except ε α} (h : Safe D i p Q s) (hI : D.Inv s)
    (hp : p.outcome? = some r) : Q r s := by
  cases p with
  | ret a => cases hp; exact h s (D.rely_refl i s) hI
  | fail e => cases hp; exact h s (D.rely_refl i s) hI
  | call o k => cases hp

end Safe

/-! ### Pools -/

/-- A shared state and the program each thread has left to run. -/
structure Pool (Op : Type) (Ret : Op → Type) (ε α σ ι : Type) where
  state : σ
  thread : ι → Program Op Ret ε α

namespace Pool

section Steps

variable [DecidableEq ι]

/-- Some thread calls its next operation. -/
inductive Step (step : ι → σ → (o : Op) → Option (Ret o × σ)) :
    Pool Op Ret ε α σ ι → Pool Op Ret ε α σ ι → Prop
  | call {p : Pool Op Ret ε α σ ι} {i : ι} {o : Op} {k : Ret o → Program Op Ret ε α} {r : Ret o}
      {s' : σ} (hthread : p.thread i = .call o k) (hstep : step i p.state o = some (r, s')) :
      Step step p ⟨s', Function.update p.thread i (k r)⟩

/-- Any number of steps, by any threads in any order. -/
abbrev Run (step : ι → σ → (o : Op) → Option (Ret o × σ)) :
    Pool Op Ret ε α σ ι → Pool Op Ret ε α σ ι → Prop :=
  Relation.ReflTransGen (Step step)

end Steps

/-- A pool whose invariant holds and whose threads are all safe. -/
structure Good (D : Discipline step) (Q : ι → Except ε α → σ → Prop)
    (p : Pool Op Ret ε α σ ι) : Prop where
  inv : D.Inv p.state
  safe : ∀ i, Safe D i (p.thread i) (Q i) p.state

variable {D : Discipline step} {Q : ι → Except ε α → σ → Prop} {p q : Pool Op Ret ε α σ ι}

/-- A finished thread has its postcondition in the state the pool is in. -/
theorem Good.outcome (hp : Good D Q p) {i : ι} {r : Except ε α}
    (hi : (p.thread i).outcome? = some r) : Q i r p.state :=
  (hp.safe i).outcome hp.inv hi

variable [DecidableEq ι]

theorem Good.next (hC : D.Concurrent) (hp : Good D Q p) (h : Step step p q) : Good D Q q := by
  cases h with
  | @call i o k r s' hthread hstep =>
      have hi := hp.safe i
      rw [hthread] at hi
      obtain ⟨hG, hk⟩ := hi p.state (D.rely_refl i _) hp.inv
      refine ⟨D.inv_step hp.inv hG hstep, fun j => ?_⟩
      by_cases hj : j = i
      · subst hj
        simpa using hk r s' hstep
      · simpa [Function.update_of_ne hj] using
          (hp.safe j).rely (hC hp.inv hG hstep hj)

/-- **The pool theorem.** Threads that are safe one by one are safe together. -/
theorem Run.good (hC : D.Concurrent) (hp : Good D Q p) (h : Run step p q) : Good D Q q := by
  induction h with
  | refl => exact hp
  | tail _ hstep ih => exact ih.next hC hstep

/-- What every guarded step keeps, every run keeps. -/
theorem Run.induct (hC : D.Concurrent) {J : σ → Prop}
    (hJ : ∀ {i s o r s'}, D.Inv s → D.Guard i s o → step i s o = some (r, s') → J s → J s')
    (hp : Good D Q p) (h : Run step p q) (h₀ : J p.state) : J q.state := by
  induction h with
  | refl => exact h₀
  | @tail b c hrun hstep ih =>
      have hb := Run.good hC hp hrun
      cases hstep with
      | @call i o k r s' hthread hs =>
          have hi := hb.safe i
          rw [hthread] at hi
          exact hJ hb.inv (hi b.state (D.rely_refl i _) hb.inv).1 hs ih

/-- A run of one program alone is a run of any pool that has it as a thread. -/
theorem run_of_program {x : Program Op Ret ε α} {s s' : σ} {T : ι → Program Op Ret ε α} {i : ι}
    {r : Except ε α} (hi : T i = x) (hrun : x.run (step i) s = some (r, s')) :
    ∃ y : Program Op Ret ε α, y.outcome? = some r ∧
      Run step ⟨s, T⟩ ⟨s', Function.update T i y⟩ := by
  induction x generalizing s T with
  | ret a =>
      cases hrun
      exact ⟨.ret a, rfl, by rw [← hi, Function.update_eq_self]⟩
  | fail e =>
      cases hrun
      exact ⟨.fail e, rfl, by rw [← hi, Function.update_eq_self]⟩
  | call o k ih =>
      obtain ⟨⟨a, t⟩, hstep, hrest⟩ := Option.bind_eq_some_iff.mp hrun
      obtain ⟨y, hy, hrun'⟩ := ih a (T := Function.update T i (k a)) (by simp) hrest
      refine ⟨y, hy, .head (Step.call hi hstep) ?_⟩
      simpa using hrun'

/-- A thread that has finished never steps, so it may as well be one that has not started. -/
theorem Run.replace_finished {i : ι} {r : Except ε α} (h : Run step p q)
    (hi : (p.thread i).outcome? = some r) (x : Program Op Ret ε α) :
    q.thread i = p.thread i ∧
      Run step ⟨p.state, Function.update p.thread i x⟩ ⟨q.state, Function.update q.thread i x⟩ := by
  induction h with
  | refl => exact ⟨rfl, .refl⟩
  | @tail b c hrun hstep ih =>
      obtain ⟨hsame, hreplaced⟩ := ih
      cases hstep with
      | @call j o k a s' hthread hs =>
          have hne : j ≠ i := by
            rintro rfl
            rw [← hsame, hthread] at hi
            cases hi
          refine ⟨(Function.update_of_ne hne.symm _ _).trans hsame, hreplaced.tail ?_⟩
          rw [Function.update_comm hne]
          exact Step.call ((Function.update_of_ne hne _ _).trans hthread) hs

end Pool

/-! ### Serial executions -/

/-- `t` comes out of `s` when the threads of a list act one after the other, each in one step. -/
inductive Serially (R : ι → σ → σ → Prop) (s : σ) : List ι → σ → Prop
  | nil : Serially R s [] s
  | snoc {order : List ι} {i : ι} {t u : σ} (h : Serially R s order t) (hstep : R i t u) :
      Serially R s (order ++ [i]) u

/-- What follows step by step follows for the whole execution. -/
theorem Serially.induct {R : ι → σ → σ → Prop} {s t : σ} {order : List ι} {τ : Type}
    {J : σ → τ → Prop} {f : τ → ι → τ} (hJ : ∀ {i t u a}, R i t u → J t a → J u (f a i))
    (h : Serially R s order t) {a : τ} (h₀ : J s a) : J t (order.foldl f a) := by
  induction h with
  | nil => exact h₀
  | snoc _ hstep ih =>
      rw [List.foldl_append]
      exact hJ hstep ih

end VcalmStatus.Effects
